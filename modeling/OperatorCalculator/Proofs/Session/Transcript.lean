import Mathlib.Data.List.Forall2
import Mathlib.Data.List.TakeWhile
import Mathlib.Data.Set.List
import OperatorCalculator.Proofs.Session.Lines

/-
What a session writes, line by line.

On a line stands one expression: a newline at its end is no part of it, and then neither is a
carriage return.  While the lines are texts, their expressions are answered, each one between
two prompts, or passed over if they are blank; the first line that is no text ends the session.
What was written before a line has no part in its answer, so behind complete lines an input is
answered as it is on its own.
-/

set_option autoImplicit false

namespace OperatorCalculator

/-! ### The expression on a line -/

namespace Session

/-- Characters without one mark at their end.  They stay as they are if they end otherwise. -/
inductive Strips (mark : Char) : List Char → List Char → Prop
  | mark (front : List Char) : Strips mark (front ++ [mark]) front
  | nothing {characters : List Char} (hEnd : ∀ front, characters ≠ front ++ [mark]) :
      Strips mark characters characters

/-- The expression is a line without one newline at its end, and then without one carriage
return. -/
def StandsOn (expression line : String) : Prop :=
  ∃ characters, Strips '\n' line.toList characters ∧ Strips '\r' characters expression.toList

theorem dropLast_concat (mark : Char) (front : List Char) :
    dropLast mark (front ++ [mark]) = front := by
  rw [dropLast, if_pos List.getLast?_concat, List.dropLast_concat]

theorem dropLast_eq_self {mark : Char} {characters : List Char}
    (hLast : characters.getLast? ≠ some mark) : dropLast mark characters = characters :=
  if_neg hLast

theorem strips_iff {mark : Char} {characters rest : List Char} :
    Strips mark characters rest ↔ rest = dropLast mark characters := by
  constructor
  · intro hStrips
    cases hStrips with
    | mark => exact (dropLast_concat mark rest).symm
    | nothing hEnd =>
        have other : characters.getLast? ≠ some mark := by
          intro hLast
          obtain ⟨front, hFront⟩ := List.getLast?_eq_some_iff.mp hLast
          exact hEnd front hFront
        exact (dropLast_eq_self other).symm
  · intro hRest
    rw [hRest]
    by_cases hLast : characters.getLast? = some mark
    · obtain ⟨front, rfl⟩ := List.getLast?_eq_some_iff.mp hLast
      rw [dropLast_concat]
      exact .mark front
    · rw [dropLast_eq_self hLast]
      apply Strips.nothing
      intro front hFront
      rw [hFront, List.getLast?_concat] at hLast
      contradiction

theorem standsOn_iff {expression line : String} :
    StandsOn expression line ↔ expression = expressionOf line := by
  simp only [StandsOn, strips_iff, exists_eq_left, expressionOf]
  rw [← String.toList_inj, String.toList_ofList]

theorem forall₂_standsOn_iff {expressions lines : List String} :
    List.Forall₂ StandsOn expressions lines ↔ expressions = lines.map expressionOf := by
  have sameRelation : StandsOn = fun expression line => expression = expressionOf line := by
    funext expression line
    exact propext standsOn_iff
  rw [sameRelation, ← List.forall₂_map_right_iff, List.forall₂_eq_eq_eq]

end Session

/-! ### The text of a session -/

theorem Text.dropEndWhile_eq_nil_iff {drops : Char → Bool} {characters : List Char} :
    dropEndWhile drops characters = [] ↔ ∀ character ∈ characters, drops character = true := by
  simp only [dropEndWhile, List.reverse_eq_nil_iff, List.dropWhile_eq_nil_iff, List.mem_reverse]

theorem Text.isEmpty_trim (characters : List Char) :
    (trim characters).isEmpty = isAllBlank characters := by
  rw [Bool.eq_iff_iff, List.isEmpty_iff, trim, dropEndWhile_eq_nil_iff, isAllBlank,
    List.all_eq_true]
  constructor
  · intro behind character member
    rw [← List.takeWhile_append_dropWhile (p := isBlank) (l := characters)] at member
    rcases List.mem_append.mp member with taken | left
    · exact List.mem_takeWhile_imp taken
    · exact behind character left
  · intro blank character member
    exact blank character ((List.dropWhile_sublist isBlank).subset member)

namespace Settings

/-- What a session writes for an expression: nothing if it is blank, and otherwise the text to
print for it, on a line of its own. -/
def lineText (settings : Settings) (listener : Listener) (expression : String) : String :=
  if (Text.trim expression.toList).isEmpty then ""
  else ((settings.answer listener expression).run #[]).1 ++ "\n"

/-- The prompt, and for each expression what is written for it and the prompt again. -/
def sessionText (settings : Settings) (listener : Listener) (expressions : List String) :
    String :=
  settings.prompt ++
    String.join (expressions.map fun expression =>
      settings.lineText listener expression ++ settings.prompt)

variable (settings : Settings) (listener : Listener)

theorem sessionText_nil : settings.sessionText listener [] = settings.prompt :=
  String.append_empty

theorem sessionText_cons (expression : String) (expressions : List String) :
    settings.sessionText listener (expression :: expressions) =
      settings.prompt ++ settings.lineText listener expression ++
        settings.sessionText listener expressions := by
  simp only [sessionText, List.map_cons, String.join_cons, String.append_assoc]

end Settings

/-! ### Performing a session -/

namespace Transcript

theorem perform_append (transcript : Transcript) {front : List Act}
    (hFront : ∀ act ∈ front, act ≠ .giveUp) (back : List Act) :
    transcript.perform none (front ++ back) =
      (transcript.perform none front).perform none back := by
  induction front generalizing transcript with
  | nil => rfl
  | cons act front ih =>
      have others : ∀ act ∈ front, act ≠ .giveUp :=
        fun other member => hFront other (List.mem_cons_of_mem _ member)
      cases act with
      | giveUp => exact absurd rfl (hFront _ List.mem_cons_self)
      | note event => exact ih _ others
      | write text => exact ih _ others

theorem exists_output_perform (transcript other : Transcript)
    (hEnding : transcript.ending = other.ending) (acts : List Act) :
    ∃ written, (transcript.perform none acts).output = transcript.output ++ written ∧
      (other.perform none acts).output = other.output ++ written ∧
      (transcript.perform none acts).ending = (other.perform none acts).ending := by
  induction acts generalizing transcript other with
  | nil => exact ⟨.empty, ByteArray.append_empty.symm, ByteArray.append_empty.symm, hEnding⟩
  | cons act acts ih =>
      cases act with
      | note event => exact ih _ _ hEnding
      | giveUp =>
          exact ⟨.empty, ByteArray.append_empty.symm, ByteArray.append_empty.symm, rfl⟩
      | write text =>
          rcases ih { transcript with output := transcript.output ++ text.toUTF8 }
            { other with output := other.output ++ text.toUTF8 } hEnding with
            ⟨written, hOutput, hOther, ending⟩
          refine ⟨text.toUTF8 ++ written, ?_, ?_, ending⟩
          · rw [← ByteArray.append_assoc]
            exact hOutput
          · rw [← ByteArray.append_assoc]
            exact hOther

end Transcript

namespace Session

variable (settings : Settings) (listener : Listener)

theorem ne_giveUp_of_mem_turn {line : String} {act : Act}
    (member : act ∈ turn settings listener line) : act ≠ .giveUp := by
  rintro rfl
  rw [turn] at member
  split at member
  · contradiction
  · rcases List.mem_append.mp member with noted | written
    · rcases List.mem_map.mp noted with ⟨event, _, impossible⟩
      contradiction
    · have impossible := List.mem_singleton.mp written
      contradiction

theorem result_perform_turn (transcript : Transcript) (line : String) :
    (transcript.perform none (turn settings listener line)).result =
      (transcript.output ++ (settings.lineText listener (expressionOf line)).toUTF8,
        transcript.ending) := by
  rw [Transcript.result_perform none rfl, withoutNotes_turn, Settings.lineText,
    Text.isEmpty_trim, Settings.fst_run_answer]
  split
  · exact congrArg (·, transcript.ending) ByteArray.append_empty.symm
  · rfl

/-- What is left of a session behind its first prompt. -/
def behindPrompt : List (List UInt8) → List Act
  | [] => []
  | line :: lines =>
      respond settings listener line.toByteArray ++ script settings listener lines

theorem script_eq_cons (lines : List (List UInt8)) :
    script settings listener lines =
      .write settings.prompt :: behindPrompt settings listener lines := by
  cases lines with
  | nil => rfl
  | cons line lines => rfl

/-- Lines that are texts are answered one by one, whatever lines follow them. -/
theorem exists_perform_script (texts : List String) (transcript : Transcript) :
    ∃ after : Transcript,
      after.result =
        (transcript.output ++ (settings.sessionText listener (texts.map expressionOf)).toUTF8,
          transcript.ending) ∧
      ∀ lines,
        transcript.perform none (script settings listener (texts.map bytesOf ++ lines)) =
          after.perform none (behindPrompt settings listener lines) := by
  induction texts generalizing transcript with
  | nil =>
      refine ⟨{ transcript with output := transcript.output ++ settings.prompt.toUTF8 }, ?_, ?_⟩
      · rw [List.map_nil, Settings.sessionText_nil]
        rfl
      · intro lines
        rw [List.map_nil, List.nil_append, script_eq_cons]
        rfl
  | cons text texts ih =>
      let prompted := { transcript with output := transcript.output ++ settings.prompt.toUTF8 }
      have answered := result_perform_turn settings listener prompted text
      rcases ih (prompted.perform none (turn settings listener text)) with ⟨after, hAfter, hActs⟩
      refine ⟨after, ?_, ?_⟩
      · rcases Prod.mk.inj answered with ⟨output, ending⟩
        rw [hAfter, output, ending, List.map_cons, Settings.sessionText_cons]
        simp only [prompted, String.toUTF8_eq_toByteArray, String.toByteArray_append,
          ByteArray.append_assoc]
      · intro lines
        rw [← hActs, ← Transcript.perform_append prompted
          (fun act => ne_giveUp_of_mem_turn settings listener)]
        rw [List.map_cons, List.cons_append, script, respond, fromUTF8?_toByteArray_bytesOf]
        rfl

theorem exists_texts_of_isText {input : List UInt8} (hInput : IsText input) :
    ∃ texts : List String, splitLines input = texts.map bytesOf := by
  have areTexts := Set.ext_iff.mp (Set.range_list_map bytesOf) (splitLines input)
  rcases areTexts.mpr ((cutsLines_splitLines input).isText_iff.mp hInput) with ⟨texts, hTexts⟩
  exact ⟨texts, hTexts.symm⟩

theorem texts_or_bad_line (lines : List (List UInt8)) :
    (∃ texts : List String, lines = texts.map bytesOf) ∨
      ∃ (texts : List String) (bad : List UInt8) (after : List (List UInt8)),
        lines = texts.map bytesOf ++ bad :: after ∧ ¬IsText bad := by
  induction lines with
  | nil => exact Or.inl ⟨[], rfl⟩
  | cons line lines ih =>
      by_cases hLine : IsText line
      · rcases hLine with ⟨text, rfl⟩
        rcases ih with ⟨texts, rfl⟩ | ⟨texts, bad, after, rfl, hBad⟩
        · exact Or.inl ⟨text :: texts, rfl⟩
        · exact Or.inr ⟨text :: texts, bad, after, rfl, hBad⟩
      · exact Or.inr ⟨[], line, lines, rfl, hLine⟩

theorem exists_run_behind_texts (texts : List String) :
    ∃ after : Transcript,
      after.result = ((settings.sessionText listener (texts.map expressionOf)).toUTF8, .finished) ∧
      ∀ input lines, splitLines input = texts.map bytesOf ++ lines →
        run settings listener none input =
          after.perform none (behindPrompt settings listener lines) := by
  rcases exists_perform_script settings listener texts ⟨.empty, #[], .finished⟩ with
    ⟨after, hAfter, hActs⟩
  rw [ByteArray.empty_append] at hAfter
  refine ⟨after, hAfter, ?_⟩
  intro input lines hLines
  rw [run, hLines, hActs]

theorem result_run_of_texts {input : List UInt8} {texts : List String}
    (hLines : splitLines input = texts.map bytesOf) :
    (run settings listener none input).result =
      ((settings.sessionText listener (texts.map expressionOf)).toUTF8, .finished) := by
  rcases exists_run_behind_texts settings listener texts with ⟨after, hAfter, hRun⟩
  rw [hRun input [] (by rw [hLines, List.append_nil])]
  exact hAfter

theorem exists_run_of_bad_line (texts : List String) {bad : List UInt8} (hBad : ¬IsText bad) :
    ∃ transcript : Transcript,
      transcript.result =
        ((settings.sessionText listener (texts.map expressionOf)).toUTF8, .invalidInput) ∧
      ∀ input after, splitLines input = texts.map bytesOf ++ bad :: after →
        run settings listener none input = transcript := by
  rcases exists_run_behind_texts settings listener texts with ⟨behind, hBehind, hRun⟩
  refine ⟨{ behind with ending := .invalidInput }, ?_, ?_⟩
  · have output := congrArg Prod.fst hBehind
    exact congrArg (·, Ending.invalidInput) output
  · intro input after hLines
    rw [hRun input (bad :: after) hLines, behindPrompt, respond, fromUTF8?_of_not_isText hBad]
    rfl

theorem exists_run_append {front : List UInt8} (hFront : IsText front)
    (hEnds : front.getLast? = some 10) (back : List UInt8) :
    ∃ rest, (run settings listener none back).output = settings.prompt.toUTF8 ++ rest ∧
      (run settings listener none (front ++ back)).output =
        (run settings listener none front).output ++ rest ∧
      (run settings listener none (front ++ back)).ending =
        (run settings listener none back).ending := by
  rcases exists_texts_of_isText hFront with ⟨texts, hTexts⟩
  have together := (cutsLines_splitLines front).splitLines_append (by simp [hEnds]) back
  rw [hTexts] at together
  rcases exists_run_behind_texts settings listener texts with ⟨behind, hBehind, hRun⟩
  rcases exists_run_behind_texts settings listener [] with ⟨prompted, hPrompted, hRunBack⟩
  rcases Prod.mk.inj hBehind with ⟨behindOutput, behindEnding⟩
  rcases Prod.mk.inj hPrompted with ⟨promptedOutput, promptedEnding⟩
  -- Both sessions go on with the same acts, with more or less on the output before.
  rcases Transcript.exists_output_perform behind prompted
    (behindEnding.trans promptedEnding.symm)
    (behindPrompt settings listener (splitLines back)) with ⟨rest, hOutput, hOther, ending⟩
  rw [hRun (front ++ back) _ together, hRunBack back (splitLines back) rfl]
  refine ⟨rest, ?_, ?_, ending⟩
  · rw [hOther, promptedOutput, List.map_nil, Settings.sessionText_nil]
  · have frontResult := result_run_of_texts settings listener hTexts
    rcases Prod.mk.inj frontResult with ⟨frontOutput, _⟩
    rw [hOutput, behindOutput, frontOutput]

end Session

/-- An input is cut into lines in one way, and on a line stands one expression.  If all lines are
texts, the session writes what it writes for each of their expressions and finishes.  Otherwise
it does so for those in front of the first that is no text and ends there, whatever follows.
Hence it writes for complete lines and what follows them what it writes for each, with one
prompt in between. -/
theorem session_answers_line_by_line (settings : Settings) (listener : Listener) :
    (∀ input, ∃ lines, Session.CutsLines input lines ∧
      (∀ others, Session.CutsLines input others → others = lines) ∧
      (IsText input ↔ ∀ line ∈ lines, IsText line) ∧
      ((∃ texts : List String, lines = texts.map bytesOf) ∨
        ∃ (texts : List String) (bad : List UInt8) (after : List (List UInt8)),
          lines = texts.map bytesOf ++ bad :: after ∧ ¬IsText bad)) ∧
    (∀ line, ∃ expression, Session.StandsOn expression line ∧
      ∀ other, Session.StandsOn other line → other = expression) ∧
    (∀ input texts expressions, Session.CutsLines input (texts.map bytesOf) →
      List.Forall₂ Session.StandsOn expressions texts →
      (Session.run settings listener none input).output =
          (settings.sessionText listener expressions).toUTF8 ∧
        (Session.run settings listener none input).ending = .finished) ∧
    (∀ input texts expressions bad after,
      Session.CutsLines input (texts.map bytesOf ++ bad :: after) → ¬IsText bad →
      List.Forall₂ Session.StandsOn expressions texts →
      (Session.run settings listener none input).output =
          (settings.sessionText listener expressions).toUTF8 ∧
        (Session.run settings listener none input).ending = .invalidInput ∧
        ∀ other others, Session.CutsLines other (texts.map bytesOf ++ bad :: others) →
          Session.run settings listener none other = Session.run settings listener none input) ∧
    ∀ front back, IsText front → front.getLast? = some 10 →
      ∃ rest,
        (Session.run settings listener none back).output = settings.prompt.toUTF8 ++ rest ∧
        (Session.run settings listener none (front ++ back)).output =
          (Session.run settings listener none front).output ++ rest ∧
        (Session.run settings listener none (front ++ back)).ending =
          (Session.run settings listener none back).ending := by
  refine ⟨?_, ?_, ?_, ?_, fun front back hFront hEnds =>
    Session.exists_run_append settings listener hFront hEnds back⟩
  · intro input
    have cuts := Session.cutsLines_splitLines input
    exact ⟨Session.splitLines input, cuts, fun others hOthers => hOthers.splitLines_eq.symm,
      cuts.isText_iff, Session.texts_or_bad_line _⟩
  · intro line
    exact ⟨Session.expressionOf line, Session.standsOn_iff.mpr rfl,
      fun other hOther => Session.standsOn_iff.mp hOther⟩
  · intro input texts expressions hCuts hExpressions
    rw [Session.forall₂_standsOn_iff.mp hExpressions]
    exact Prod.mk.inj (Session.result_run_of_texts settings listener hCuts.splitLines_eq)
  · intro input texts expressions bad after hCuts hBad hExpressions
    rw [Session.forall₂_standsOn_iff.mp hExpressions]
    rcases Session.exists_run_of_bad_line settings listener texts hBad with
      ⟨transcript, hResult, same⟩
    rw [same input after hCuts.splitLines_eq]
    refine ⟨congrArg Prod.fst hResult, congrArg Prod.snd hResult, ?_⟩
    intro other others hOther
    exact same other others hOther.splitLines_eq

example :
    let lines := ["1 + 2\r\n", " \n", "\r\r\n", "x"]
    ({} : Settings).sessionText (fun _ => false) (lines.map Session.expressionOf) =
      "> 3\n> > > illegal literal 'x'\n> " := by
  decide +kernel

end OperatorCalculator
