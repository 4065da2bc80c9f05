import OperatorCalculator.Proofs.Evaluation.FirstFailure
import OperatorCalculator.Proofs.Evaluation.PostOrder
import OperatorCalculator.Session

/-
The events of a line.

With tracing on, the answer to a line that is not refused tells one story: the evaluation
begins, its steps happen in post-order, and the value is printed.  A listener hears the part
of it that goes to the channels it listens to.  So nothing is told of a line that is refused,
and what is heard at the highest verbosity is what is heard one below it, and the beginning.
-/

set_option autoImplicit false

namespace OperatorCalculator

/-! ### The steps in words -/

namespace Grouping

/-- What is said of every operand and of every application, each one behind its own parts. -/
def account : Grouping → List String
  | .operand text =>
      ["parse_literal(" ++ Text.quote text ++ ") = " ++ (Value.ofLiteral text).describe]
  | .application left operator right =>
      left.account ++ right.account ++
        [left.value.describe ++ ".apply(" ++ Text.quote operator ++ ", " ++
          right.value.describe ++ ") = " ++ (left.value.apply operator right.value).describe]

theorem map_message_steps (grouping : Grouping) :
    (grouping.steps Value.interpretation).map (Event.message Value.describe) =
      grouping.account := by
  induction grouping with
  | operand text => rfl
  | application left operator right ihLeft ihRight =>
      rw [steps_application, List.map_append, List.map_append, ihLeft, ihRight, account]
      rfl

theorem length_steps {V : Type} (interpretation : PureInterpretation V) (grouping : Grouping) :
    (grouping.steps interpretation).length = 2 * grouping.flatten.others.length + 1 := by
  induction grouping with
  | operand text => rfl
  | application left operator right ihLeft ihRight =>
      simp only [steps_application, flatten, List.length_append, List.length_cons,
        List.length_nil, ihLeft, ihRight]
      omega

end Grouping

/-! ### The story of a line -/

namespace Settings

variable (settings : Settings) (listener : Listener) (line : String)

def value : Value :=
  Id.run (evaluate Value.interpretation settings.table line)

def fault? : Option Fault :=
  if settings.strict then shapeFault? settings.table line else none

def steps : List (Event Value) :=
  (Grouping.ofSource settings.table line).steps Value.interpretation ++
    [.rendered (settings.value line) (settings.value line).render]

theorem snd_run_answerLeniently (hTrace : settings.trace = true) (before : Array (Event Value)) :
    ((settings.answerLeniently listener line).run before).2 =
      before ++ (listener.heard (.entered line :: settings.steps line)).toArray := by
  have together : listener.heard (.entered line :: settings.steps line) =
      listener.heard [.entered line] ++
        (listener.heard ((Grouping.ofSource settings.table line).steps Value.interpretation) ++
          listener.heard [.rendered (settings.value line) (settings.value line).render]) := by
    rw [← Listener.heard_append, ← Listener.heard_append]
    rfl
  rw [answerLeniently, if_pos hTrace, StateT.run_bind, run_evaluateTraced, pure_bind,
    run_renderTraced, Grouping.notes_eq_heard_steps, together]
  simp only [← List.append_toArray, Array.append_assoc]
  rfl

theorem channel_of_mem_steps {event : Event Value} (member : event ∈ settings.steps line) :
    event.channel = .operands := by
  rcases List.mem_append.mp member with inGrouping | atEnd
  · rcases List.mem_map.mp inGrouping with ⟨part, _, rfl⟩
    exact part.channel_step Value.interpretation
  · rw [List.mem_singleton.mp atEnd]
    rfl

/-- The events that are left behind by the answer to a line. -/
def events (verbosity? : Option Verbosity) : List (Event Value) :=
  ((settings.answer (.ofVerbosity? verbosity?) line).run #[]).2.toList

theorem events_of_fault {fault : Fault} (hFault : settings.fault? line = some fault)
    (verbosity? : Option Verbosity) : settings.events line verbosity? = [] := by
  have refused : (if settings.strict then shapeFault? settings.table line else none) = some fault :=
    hFault
  rw [events, answer, refused]
  rfl

theorem events_of_no_fault (hTrace : settings.trace = true) (hFault : settings.fault? line = none)
    (verbosity? : Option Verbosity) :
    settings.events line verbosity? =
      (Listener.ofVerbosity? verbosity?).heard (.entered line :: settings.steps line) := by
  have passes : (if settings.strict then shapeFault? settings.table line else none) = none :=
    hFault
  rw [events, answer, passes]
  simp only [snd_run_answerLeniently _ _ _ hTrace, Array.empty_append]

end Settings

/-! ### What is heard at each verbosity -/

namespace Listener

variable {V : Type} (events : List (Event V))

theorem heard_nothing (verbosity? : Option Verbosity)
    (hQuiet : verbosity? = none ∨ verbosity? = some .info) :
    (ofVerbosity? verbosity?).heard events = [] := by
  apply List.filter_eq_nil_iff.mpr
  intro event _
  rcases hQuiet with rfl | rfl
  · exact Bool.false_ne_true
  · exact Bool.false_ne_true

theorem heard_everything : (ofVerbosity? (some .trace)).heard events = events :=
  List.filter_eq_self.mpr (fun _ _ => rfl)

theorem heard_debug :
    (ofVerbosity? (some .debug)).heard events =
      ((ofVerbosity? (some .trace)).heard events).filter (·.channel != .evaluations) := by
  rw [heard_everything]
  rfl

end Listener

theorem Settings.heard_debug_steps (settings : Settings) (line : String) :
    (Listener.ofVerbosity? (some .debug)).heard (.entered line :: settings.steps line) =
      settings.steps line := by
  rw [Listener.heard, List.filter_cons_of_neg Bool.false_ne_true]
  apply List.filter_eq_self.mpr
  intro event member
  show (event.channel != .evaluations) = true
  rw [settings.channel_of_mem_steps line member]
  rfl

/-- With tracing on, the answer to a line that is not refused leaves behind the steps of its
evaluation in post-order, with the values that an evaluation computes that nobody traces, and
then the printing of its value: twice as many events as operators were taken in, and two.  A
line that is refused leaves nothing behind, nor does any line at the lowest verbosity, and the
highest one adds the beginning of the evaluation. -/
theorem traced_answer_leaves_steps (settings : Settings) (line : String) :
    let traced : Settings := { settings with trace := true }
    let heard := traced.events line
    let grouping := Grouping.ofSource settings.table line
    let value := Id.run (evaluate Value.interpretation settings.table line)
    (∀ fault, settings.fault? line = some fault → ∀ verbosity?, heard verbosity? = []) ∧
      heard none = [] ∧ heard (some .info) = [] ∧
      (heard (some .trace)).filter (·.channel != .evaluations) = heard (some .debug) ∧
      (∀ {m : Type → Type} [Monad m] [LawfulMonad m] {V : Type} (steps : Interpretation m V),
        evaluate steps settings.table line = grouping.fold steps) ∧
      (settings.fault? line = none →
        heard (some .debug) =
            grouping.postOrder.map (Grouping.step Value.interpretation) ++
              [.rendered value value.render] ∧
          (heard (some .debug)).map (Event.message Value.describe) =
            grouping.account ++
              [value.describe ++ ".render() = " ++ Text.quote value.render] ∧
          heard (some .trace) = .entered line :: heard (some .debug) ∧
          ∃ (alternation : Alternation Token Operand) (rest : List Token),
            alternation.Reads settings.table 1 (tokenize settings.table line) rest ∧
              Alternation.StopsAt settings.table 1 rest ∧
              grouping.flatten = alternation.texts ∧
              (heard (some .debug)).length = 2 * alternation.others.length + 2) := by
  intro traced heard grouping value
  have refused : ∀ fault, settings.fault? line = some fault →
      ∀ verbosity?, heard verbosity? = [] :=
    fun _ hFault => traced.events_of_fault line hFault
  have told : settings.fault? line = none → ∀ verbosity?, heard verbosity? =
      (Listener.ofVerbosity? verbosity?).heard (.entered line :: traced.steps line) :=
    traced.events_of_no_fault line rfl
  have quiet : ∀ verbosity?, verbosity? = none ∨ verbosity? = some .info →
      heard verbosity? = [] := by
    intro verbosity? hQuiet
    cases hFault : settings.fault? line with
    | some fault => exact refused fault hFault verbosity?
    | none => rw [told hFault, Listener.heard_nothing _ _ hQuiet]
  have groups := Cursor.groups_stop Value.interpretation settings.table line
  rcases groups.reads with ⟨alternation, hReads, hFlatten⟩
  refine ⟨refused, quiet none (Or.inl rfl), quiet (some .info) (Or.inr rfl), ?_,
    fun steps => evaluate_eq_fold steps settings.table line, ?_⟩
  · cases hFault : settings.fault? line with
    | some fault => rw [refused fault hFault, refused fault hFault, List.filter_nil]
    | none => rw [told hFault, told hFault, Listener.heard_debug]
  · intro hFault
    have steps : heard (some .debug) = traced.steps line := by
      rw [told hFault]
      exact traced.heard_debug_steps line
    refine ⟨steps, ?_, ?_, alternation, _, hReads, groups.stops, hFlatten, ?_⟩
    · rw [steps, Settings.steps, List.map_append, Grouping.map_message_steps]
      rfl
    · rw [steps, told hFault, Listener.heard_everything]
    · have others : (Grouping.ofSource traced.table line).flatten.others.length =
          alternation.others.length := by
        rw [hFlatten, Alternation.texts_eq, Alternation.textsOf, List.length_map]
      rw [steps, Settings.steps, List.length_append, Grouping.length_steps, others,
        List.length_singleton]

/-- The failure of a right operand that is itself an application. -/
theorem traced_answer_leaves_steps_of_failure :
    let settings : Settings := { strict := true }
    let traced : Settings := { settings with trace := true }
    settings.fault? "1 - -2 * t" = none ∧
      (traced.events "1 - -2 * t" (some .debug)).map (Event.message Value.describe) =
        ["parse_literal(\"1\") = Integer(1)",
          "parse_literal(\"-2\") = Integer(-2)",
          "parse_literal(\"t\") = Boolean(true)",
          "Integer(-2).apply(\"*\", Boolean(true)) = Error(\"illegal operation: '-2 * true'\")",
          "Integer(1).apply(\"-\", Error(\"illegal operation: '-2 * true'\")) = " ++
            "Error(\"illegal operation: '-2 * true'\")",
          "Error(\"illegal operation: '-2 * true'\").render() = " ++
            "\"illegal operation: '-2 * true'\""] := by
  intro settings traced
  have passes : settings.fault? "1 - -2 * t" = none := by
    decide +kernel
  have told := ((traced_answer_leaves_steps settings "1 - -2 * t").2.2.2.2.2 passes).2.1
  refine ⟨passes, told.trans ?_⟩
  decide +kernel

end OperatorCalculator
