import OperatorCalculator.Proofs.Evaluation.Traced
import OperatorCalculator.Session

/-
Tracing changes no result.

What is printed for a line depends on the shape and the value of its expression, not on
whether events are left behind on the way.  Events are notes among the acts of a session;
without them its acts are the same with tracing and without, so it writes the same bytes
and ends in the same way, even on an output that runs full.
-/

set_option autoImplicit false

namespace OperatorCalculator

/-! ### One line -/

namespace Settings

/-- The text to print for an expression, events apart. -/
def reply (settings : Settings) (line : String) : String :=
  match if settings.strict then shapeFault? settings.table line else none with
  | some fault => (fault.report? line).getD fault.message
  | none => (Id.run (evaluate Value.interpretation settings.table line)).render

variable (settings : Settings) (listener : Listener) (line : String)
  (before : Array (Event Value))

theorem fst_run_answerLeniently :
    ((settings.answerLeniently listener line).run before).1 =
      (Id.run (evaluate Value.interpretation settings.table line)).render := by
  rw [answerLeniently]
  cases settings.trace with
  | true =>
      rw [if_pos rfl, StateT.run_bind, run_evaluateTraced, pure_bind, run_renderTraced]
      rfl
  | false =>
      rw [if_neg Bool.false_ne_true, StateT.run_bind, run_evaluateQuietly]
      rfl

theorem fst_run_answer :
    ((settings.answer listener line).run before).1 = settings.reply line := by
  rw [answer, reply]
  cases if settings.strict then shapeFault? settings.table line else none with
  | some fault => rfl
  | none => exact fst_run_answerLeniently settings listener line before

/-- An answer only adds to the events that were left behind before. -/
theorem snd_run_answerLeniently_eq_append :
    ((settings.answerLeniently listener line).run before).2 =
      before ++ ((settings.answerLeniently listener line).run #[]).2 := by
  rw [answerLeniently]
  cases settings.trace with
  | true =>
      simp only [if_true, StateT.run_bind, run_evaluateTraced, pure_bind, run_renderTraced,
        Array.empty_append, Array.append_assoc]
      rfl
  | false =>
      simp only [Bool.false_eq_true, if_false, StateT.run_bind, run_evaluateQuietly, pure_bind,
        StateT.run_pure, Array.empty_append]
      rfl

theorem snd_run_answer_eq_append :
    ((settings.answer listener line).run before).2 =
      before ++ ((settings.answer listener line).run #[]).2 := by
  rw [answer]
  cases if settings.strict then shapeFault? settings.table line else none with
  | some fault => exact Array.append_empty.symm
  | none => exact snd_run_answerLeniently_eq_append settings listener line before

end Settings

/-! ### Acts that leave a mark on the output -/

namespace Act

def isNote : Act → Bool
  | .note _ => true
  | .write _ | .giveUp => false

def withoutNotes (acts : List Act) : List Act :=
  acts.filter (!·.isNote)

theorem withoutNotes_append (front back : List Act) :
    withoutNotes (front ++ back) = withoutNotes front ++ withoutNotes back :=
  List.filter_append front back

theorem withoutNotes_map_note (events : List (Event Value)) :
    withoutNotes (events.map .note) = [] := by
  apply List.filter_eq_nil_iff.mpr
  intro act member
  obtain ⟨event, _, rfl⟩ := List.mem_map.mp member
  exact Bool.false_ne_true

end Act

namespace Session

open Act (withoutNotes withoutNotes_append withoutNotes_map_note)

variable (settings : Settings) (listener : Listener)

theorem fst_run_announceAndAnswer (expression : String) (before : Array (Event Value)) :
    ((announceAndAnswer settings listener expression).run before).1 =
      settings.reply expression := by
  rw [announceAndAnswer, StateT.run_bind, run_record, pure_bind, Settings.fst_run_answer]

theorem withoutNotes_turn (line : String) :
    withoutNotes (turn settings listener line) =
      if Text.isAllBlank (expressionOf line).toList then []
      else [.write (settings.reply (expressionOf line) ++ "\n")] := by
  have answered := fst_run_announceAndAnswer settings listener (expressionOf line) #[]
  rw [turn]
  split
  · rfl
  · cases hRun : (announceAndAnswer settings listener (expressionOf line)).run #[] with
    | mk text events =>
        obtain rfl : text = settings.reply (expressionOf line) := by
          rwa [hRun] at answered
        simp only [withoutNotes_append, withoutNotes_map_note, List.nil_append]
        rfl

theorem withoutNotes_turn_trace (heard other : Listener) (line : String) :
    withoutNotes (turn { settings with trace := true } heard line) =
      withoutNotes (turn { settings with trace := false } other line) := by
  rw [withoutNotes_turn, withoutNotes_turn]
  rfl

theorem withoutNotes_respond_trace (heard other : Listener) (line : ByteArray) :
    withoutNotes (respond { settings with trace := true } heard line) =
      withoutNotes (respond { settings with trace := false } other line) := by
  rw [respond, respond]
  cases String.fromUTF8? line with
  | some text => exact withoutNotes_turn_trace settings heard other text
  | none => rfl

theorem withoutNotes_script_trace (heard other : Listener) (lines : List (List UInt8)) :
    withoutNotes (script { settings with trace := true } heard lines) =
      withoutNotes (script { settings with trace := false } other lines) := by
  induction lines with
  | nil => rfl
  | cons line lines ih =>
      have answers := withoutNotes_respond_trace settings heard other line.toByteArray
      rw [script, script, withoutNotes_append, withoutNotes_append, ih]
      simp only [withoutNotes, List.filter_cons] at answers ⊢
      rw [answers]

end Session

/-! ### What comes of acts without their notes -/

namespace Transcript

def result (transcript : Transcript) : ByteArray × Ending :=
  (transcript.output, transcript.ending)

theorem result_perform (room : Option Nat) {transcript other : Transcript}
    (same : transcript.result = other.result) (acts : List Act) :
    (transcript.perform room acts).result =
      (other.perform room (Act.withoutNotes acts)).result := by
  induction acts generalizing room transcript other with
  | nil => exact same
  | cons act acts ih =>
      obtain ⟨sameOutput, sameEnding⟩ := Prod.mk.inj same
      cases act with
      | note event => exact ih room same
      | giveUp => exact congrArg (·, Ending.invalidInput) sameOutput
      | write text =>
          have appended : { transcript with output := transcript.output ++ text.toUTF8 }.result =
              { other with output := other.output ++ text.toUTF8 }.result := by
            rw [result, result, sameOutput, sameEnding]
          cases room with
          | none => exact ih none appended
          | some room =>
              show (perform (some room) transcript (.write text :: acts)).result =
                (perform (some room) other (.write text :: Act.withoutNotes acts)).result
              rw [perform, perform]
              by_cases fits : text.toUTF8.size ≤ room
              · simp only [if_pos fits]
                exact ih (some (room - text.toUTF8.size)) appended
              · simp only [if_neg fits, result, sameOutput]

end Transcript

theorem Session.result_run_trace (settings : Settings) (heard other : Listener)
    (room : Option Nat) (input : List UInt8) :
    (run { settings with trace := true } heard room input).result =
      (run { settings with trace := false } other room input).result := by
  rw [run, run, Transcript.result_perform room rfl, withoutNotes_script_trace settings heard other,
    ← Transcript.result_perform room rfl]

/-- Whoever listens, a traced evaluation gives and prints what the untraced one does, a line
is answered with the same text, and a session writes the same bytes and ends in the same
way, on any output. -/
theorem tracing_changes_no_result {V : Type} (interpretation : PureInterpretation V)
    (render : V → String) (table : PrecedenceTable) (source : String) (settings : Settings)
    (heard other : Listener) :
    (∀ before,
      ((evaluateTraced interpretation heard table source).run before).1 =
        Id.run (evaluate interpretation table source)) ∧
    (∀ before,
      ((do
        let value ← evaluateTraced interpretation heard table source
        renderTraced heard render value : Recorder V String).run before).1 =
        render (Id.run (evaluate interpretation table source))) ∧
    (∀ line before otherBefore,
      ((Settings.answer { settings with trace := true } heard line).run before).1 =
        ((Settings.answer { settings with trace := false } other line).run otherBefore).1) ∧
    ∀ room input,
      (Session.run { settings with trace := true } heard room input).output =
          (Session.run { settings with trace := false } other room input).output ∧
        (Session.run { settings with trace := true } heard room input).ending =
          (Session.run { settings with trace := false } other room input).ending := by
  refine ⟨?_, ?_, ?_, ?_⟩
  · intro before
    rw [run_evaluateTraced]
    rfl
  · intro before
    rw [StateT.run_bind, run_evaluateTraced, pure_bind, run_renderTraced]
    rfl
  · intro line before otherBefore
    rw [Settings.fst_run_answer, Settings.fst_run_answer]
    rfl
  · intro room input
    exact Prod.mk.inj (Session.result_run_trace settings heard other room input)

end OperatorCalculator
