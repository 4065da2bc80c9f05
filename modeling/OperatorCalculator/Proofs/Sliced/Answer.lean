import OperatorCalculator.Proofs.Evaluation.Grammar
import OperatorCalculator.Proofs.Session.Tracing
import OperatorCalculator.Proofs.Sliced.Evaluation
import OperatorCalculator.Proofs.Text.Location

/-
Answers by slices.

A line of a session is answered by slices only: to scan it, to check and evaluate it, and to
find the line and the column of a fault in it.  A fault lies at the start of a token, hence
between two characters, so its report has a place to point at.  What else could keep a report
from being written is a caret in a column too wide to be formatted.
-/

set_option autoImplicit false

namespace OperatorCalculator

/-! ### Where a fault lies -/

def Cause.found : Cause → String
  | .expectedOperand found | .trailingInput found | .unterminatedString found => found
  | .invalidPrecedence entry => entry

theorem Alternation.Blocks.found {table : PrecedenceTable} {before : List Token} {token : Token}
    {cause : Cause} (hBlocks : Blocks table before token cause) : cause.found = token.text := by
  cases hBlocks with
  | trailing _ _ _ => rfl
  | expected _ _ => rfl
  | unterminated _ _ _ _ => rfl

/-- A fault lies at the start of a token and tells of its text. -/
theorem exists_token_of_shapeFault? {table : PrecedenceTable} {source : String} {fault : Fault}
    (hFault : shapeFault? table source = some fault) :
    ∃ token ∈ tokenize table source,
      fault.position = token.span.start ∧ fault.cause.found = token.text := by
  rcases faultedAt_of_shapeFault? hFault with ⟨before, token, after, whole, position, blocks⟩
  refine ⟨token, ?_, position, blocks.found⟩
  rw [whole]
  exact List.mem_append_right before List.mem_cons_self

theorem exists_location_of_shapeFault? {table : PrecedenceTable} {source : String}
    {fault : Fault} (hFault : shapeFault? table source = some fault) :
    ∃ location, Text.locate? source.toList fault.position = some location := by
  rcases exists_token_of_shapeFault? hFault with ⟨token, member, position, _⟩
  have cut := (tokenize_partition table source).sliced token member
  have boundaries := Text.slice?_ne_none_iff.mp (by rw [cut]; exact Option.some_ne_none _)
  rw [position]
  exact Text.exists_locate? boundaries.2.1

/-! ### The answer -/

namespace Sliced

/-- The number of characters to which a text can be aligned at most. -/
def widestField : Nat := 65535

/-- The report on a fault, if its caret can be aligned. -/
def report? (fault : Fault) (source : String) : Option String := do
  let location ← Text.locate? source.toList fault.position
  if location.column + 1 ≤ widestField then
    return "\n".intercalate (fault.cause.reportLines location)
  else
    none

/-- The text to print for an expression.  What listeners get to hear takes no slice. -/
def answer? (settings : Settings) (line : String) : Option String := do
  match ← if settings.strict then check? settings.table line else some none with
  | some fault => report? fault line
  | none =>
      let value ← evaluate? Value.interpretation settings.table line
      return value.render

theorem report?_eq {fault : Fault} {source : String} {location : Text.Location}
    (hLocation : Text.locate? source.toList fault.position = some location)
    (hColumn : location.column ≤ 65534) : report? fault source = fault.report? source := by
  have fits : location.column + 1 ≤ widestField := Nat.succ_le_succ hColumn
  rw [report?, Fault.report?, hLocation, Option.bind_eq_bind, Option.bind_some, if_pos fits]
  rfl

theorem answer?_eq (settings : Settings) (line : String)
    (hCaret : settings.strict = true → ∀ fault location,
      shapeFault? settings.table line = some fault →
      Text.locate? line.toList fault.position = some location → location.column ≤ 65534) :
    answer? settings line = some (settings.reply line) := by
  have lenient : (evaluate? Value.interpretation settings.table line).bind
      (fun value => some value.render) =
        some (Id.run (OperatorCalculator.evaluate Value.interpretation settings.table
          line)).render := by
    rw [evaluate?_eq]
    rfl
  rw [answer?, Settings.reply, check?_eq]
  cases hStrict : settings.strict with
  | false => exact lenient
  | true =>
      cases hFault : shapeFault? settings.table line with
      | none => exact lenient
      | some fault =>
          rcases exists_location_of_shapeFault? hFault with ⟨location, hLocation⟩
          have written := report?_eq hLocation (hCaret hStrict fault location hFault hLocation)
          show report? fault line = some ((fault.report? line).getD fault.message)
          rw [written, Fault.report?, hLocation]
          rfl

end Sliced

/-- No slice is ever missing, which one would be if its ends were out of order, out of range or
inside a character: the scan, the check, the evaluation with any interpretation and the look
at the end of a quoted token come to their results, and every fault that the check finds has a
place in its expression.  Hence a line is always answered, unless the caret of a report would
stand in a column past those that can be formatted. -/
theorem every_slice_has_an_answer (table : PrecedenceTable) (source : String) :
    (∀ (characters : List Char) (start stop : Nat),
      Text.slice? characters start stop ≠ none ↔
        start ≤ stop ∧ Text.IsBoundary characters start ∧ Text.IsBoundary characters stop) ∧
      Sliced.tokenize? table source = some (tokenize table source) ∧
      (∀ token ∈ tokenize table source,
        Sliced.isTerminated? token = some token.isTerminated) ∧
      Sliced.check? table source = some (shapeFault? table source) ∧
      (∀ {V : Type} (interpretation : PureInterpretation V),
        Sliced.evaluate? interpretation table source =
            some (Id.run (evaluate interpretation table source)) ∧
          Sliced.evaluateStrict? interpretation table source =
            some (evaluateStrict interpretation table source)) ∧
      (∀ fault, shapeFault? table source = some fault →
        ∃ location, Text.locate? source.toList fault.position = some location ∧
          (location.column ≤ 65534 →
            ∃ report, Sliced.report? fault source = some report ∧
              fault.report? source = some report)) ∧
      ∀ settings : Settings, settings.table = table →
        (settings.strict = true → ∀ fault location,
          shapeFault? table source = some fault →
          Text.locate? source.toList fault.position = some location →
          location.column ≤ 65534) →
        ∀ (listener : Listener) (before : Array (Event Value)),
          Sliced.answer? settings source =
            some ((settings.answer listener source).run before).1 := by
  refine ⟨fun characters start stop => Text.slice?_ne_none_iff,
    Sliced.tokenize?_eq table source, fun token member => Sliced.isTerminated?_of_mem member,
    Sliced.check?_eq table source, ?_, ?_, ?_⟩
  · intro V interpretation
    exact ⟨Sliced.evaluate?_eq interpretation table source,
      Sliced.evaluateStrict?_eq interpretation table source⟩
  · intro fault hFault
    rcases exists_location_of_shapeFault? hFault with ⟨location, hLocation⟩
    refine ⟨location, hLocation, ?_⟩
    intro hColumn
    have written : fault.report? source =
        some ("\n".intercalate (fault.cause.reportLines location)) := by
      rw [Fault.report?, hLocation]
      rfl
    exact ⟨_, (Sliced.report?_eq hLocation hColumn).trans written, written⟩
  · rintro settings rfl hCaret listener before
    rw [Settings.fst_run_answer]
    exact Sliced.answer?_eq settings source hCaret

/-- The text in quotes has more bytes than characters. -/
example :
    Sliced.answer? ⟨"", true, false, .standard⟩ "\"→\" x" =
      some ("Error: TrailingInput (Unexpected `x` after a complete expression)\n" ++
        "  |\n1 | \"→\" x\n  |     ^") := by
  decide +kernel

end OperatorCalculator
