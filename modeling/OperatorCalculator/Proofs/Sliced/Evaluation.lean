import OperatorCalculator.Proofs.Evaluation.Span
import OperatorCalculator.Proofs.Evaluation.Shape
import OperatorCalculator.Proofs.Sliced.Scanner

/-
Checking and evaluating by slices.

The same check and the same evaluation, on tokens that are scanned by offsets.  A sign and
its word are cut out of the expression together, and the body of a quoted token is cut out of
its text.  Neither ever lacks a slice, so both come to the result of the check and of the
evaluation that never need one.
-/

set_option autoImplicit false

namespace OperatorCalculator

open Text (byteLength slice?)

/-! ### The evaluation -/

namespace Sliced

/-- The token in view, and the offset behind it. -/
structure Reader where
  current : Token
  offset : Nat

namespace Reader

def at? (table : PrecedenceTable) (source : String) (offset : Nat) : Option Reader := do
  let (current, behind) ← next? table source offset
  return ⟨current, behind⟩

def advance? (table : PrecedenceTable) (source : String) (reader : Reader) : Option Reader :=
  at? table source reader.offset

/-- The text of the operand in view, and the reader behind it. -/
def operand? (table : PrecedenceTable) (source : String) (reader : Reader) :
    Option (String × Reader) := do
  let after ← reader.advance? table source
  if reader.current.isSignOf after.current then
    let behind ← after.advance? table source
    let characters ← slice? source.toList reader.current.span.start after.current.span.stop
    return (String.ofList characters, behind)
  else
    return (reader.current.text, after)

/-- The value of the operand in view, and the reader behind it. -/
def value? {V : Type} (interpretation : PureInterpretation V) (table : PrecedenceTable)
    (source : String) (reader : Reader) : Option (V × Reader) := do
  let (text, behind) ← reader.operand? table source
  return (Id.run (interpretation.literal text), behind)

/-- Applies operators of rank `minimum` and above to the value on the left, for as long as
such operators are in view, if that is done in a number of steps. -/
def climb? {V : Type} (interpretation : PureInterpretation V) (table : PrecedenceTable)
    (source : String) : Nat → Nat → V → Reader → Option (V × Reader)
  | 0, _, _, _ => none
  | steps + 1, minimum, left, reader =>
      match reader.current.level? table with
      | none => some (left, reader)
      | some level =>
          if minimum ≤ level.rank then do
            let start ← reader.advance? table source
            let (first, behindOperand) ← start.value? interpretation table source
            let (right, behindRight) ←
              match level.tighter? with
              | some tighter =>
                  climb? interpretation table source steps tighter.rank first behindOperand
              | none => some (first, behindOperand)
            let combined := Id.run (interpretation.apply left reader.current.text right)
            climb? interpretation table source steps minimum combined behindRight
          else
            some (left, reader)

end Reader

def evaluate? {V : Type} (interpretation : PureInterpretation V) (table : PrecedenceTable)
    (source : String) : Option V := do
  let start ← Reader.at? table source 0
  let (first, behind) ← start.value? interpretation table source
  let (value, _) ←
    Reader.climb? interpretation table source (source.utf8ByteSize + 1) 1 first behind
  return value

/-! ### The check -/

/-- The fault of a single token that stands where an operand should. -/
def operandFault? (table : PrecedenceTable) (token : Token) : Option (Option Fault) :=
  if token.isEnd || token.isOperatorOf table then
    some (some ⟨.expectedOperand token.text, token.span.start⟩)
  else if token.kind == .quoted then do
    let terminated ← isTerminated? token
    return if terminated then none else some ⟨.unterminatedString token.text, token.span.start⟩
  else
    some none

mutual

/-- The first fault of tokens that should begin with an operand. -/
def faultAtOperand? (table : PrecedenceTable) : List Token → Option (Option Fault)
  | [] => some none
  | [token] => operandFault? table token
  | token :: next :: rest =>
      if token.isSignOf next then
        faultBehindOperand? table rest
      else do
        match ← operandFault? table token with
        | some fault => return some fault
        | none => faultBehindOperand? table (next :: rest)

/-- The first fault of tokens that follow an operand. -/
def faultBehindOperand? (table : PrecedenceTable) : List Token → Option (Option Fault)
  | [] => some none
  | token :: rest =>
      if token.isEnd then
        some none
      else if token.isOperatorOf table then
        faultAtOperand? table rest
      else
        some (some ⟨.trailingInput token.text, token.span.start⟩)

end

def check? (table : PrecedenceTable) (source : String) : Option (Option Fault) := do
  let tokens ← tokenize? table source
  faultAtOperand? table tokens

def evaluateStrict? {V : Type} (interpretation : PureInterpretation V)
    (table : PrecedenceTable) (source : String) : Option (Except Fault V) := do
  match ← check? table source with
  | some fault => return .error fault
  | none =>
      let value ← evaluate? interpretation table source
      return .ok value

end Sliced

/-! ### Where a cursor stands -/

/-- The cursor came upon its token from an offset of the expression. -/
def Cursor.StandsIn (table : PrecedenceTable) (source : String) (cursor : Cursor) : Prop :=
  ∃ scanner : Scanner, scanner.StandsIn source ∧ cursor = ofScanner table scanner

namespace Cursor

variable {table : PrecedenceTable} {source : String} {cursor : Cursor}

theorem standsIn_start (table : PrecedenceTable) (source : String) :
    (start table source).StandsIn table source :=
  ⟨.start source, Scanner.standsIn_start source, rfl⟩

theorem StandsIn.scanner (hStands : cursor.StandsIn table source) :
    cursor.scanner.StandsIn source := by
  rcases hStands with ⟨scanner, hScanner, rfl⟩
  exact hScanner.next

theorem StandsIn.advance (hStands : cursor.StandsIn table source) :
    (cursor.advance table).StandsIn table source :=
  ⟨cursor.scanner, hStands.scanner, rfl⟩

theorem StandsIn.operand (hStands : cursor.StandsIn table source) :
    (cursor.operand table).2.val.StandsIn table source :=
  holds_behind_operand (fun _ hCursor => hCursor.advance) hStands.advance

theorem StandsIn.slice_current (hStands : cursor.StandsIn table source) :
    slice? source.toList cursor.current.span.start cursor.current.span.stop =
      some cursor.current.text.toList := by
  rcases hStands with ⟨scanner, hScanner, rfl⟩
  have atToken := hScanner.skip (Scanner.remaining_eq_append table scanner)
  have span := scanner.span_next table
  have cut := atToken.slice_eq rfl
  show slice? source.toList (scanner.next table).1.span.start (scanner.next table).1.span.stop = _
  rw [span]
  exact cut

end Cursor

namespace Sliced

variable {table : PrecedenceTable} {source : String} {cursor : Cursor}

/-! ### The same evaluation -/

def Reader.ofCursor (cursor : Cursor) : Reader := ⟨cursor.current, cursor.scanner.offset⟩

theorem Reader.at?_eq {scanner : Scanner} (hStands : scanner.StandsIn source) :
    at? table source scanner.offset = some (ofCursor (.ofScanner table scanner)) := by
  rw [at?, next?_eq hStands]
  rfl

theorem Reader.advance?_eq (hStands : cursor.StandsIn table source) :
    (ofCursor cursor).advance? table source = some (ofCursor (cursor.advance table)) :=
  at?_eq hStands.scanner

theorem slice_signed (hStands : cursor.StandsIn table source)
    (hSign : cursor.current.isSignOf (cursor.advance table).current = true) :
    slice? source.toList cursor.current.span.start (cursor.advance table).current.span.stop =
      some (cursor.current.text.toList ++ (cursor.advance table).current.text.toList) := by
  have word := hStands.advance.slice_current
  rw [Token.start_eq_of_isSignOf hSign] at word
  exact Text.slice?_trans hStands.slice_current word

theorem Reader.operand?_eq (hStands : cursor.StandsIn table source) :
    (ofCursor cursor).operand? table source =
      some ((cursor.operand table).1, ofCursor (cursor.operand table).2.val) := by
  rw [operand?, advance?_eq hStands, Option.bind_eq_bind, Option.bind_some]
  cases hSign : cursor.current.isSignOf (cursor.advance table).current with
  | true =>
      have sign : (ofCursor cursor).current.isSignOf (ofCursor (cursor.advance table)).current =
          true := hSign
      have cut : slice? source.toList (ofCursor cursor).current.span.start
          (ofCursor (cursor.advance table)).current.span.stop =
            some (cursor.current.text.toList ++ (cursor.advance table).current.text.toList) :=
        slice_signed hStands hSign
      simp only [if_pos sign, advance?_eq hStands.advance, cut, Option.bind_eq_bind,
        Option.bind_some, Cursor.operand_of_isSignOf hSign, String.ofList_append,
        String.ofList_toList]
      rfl
  | false =>
      have noSign : ¬(ofCursor cursor).current.isSignOf
          (ofCursor (cursor.advance table)).current = true := by
        rw [ofCursor, ofCursor, hSign]
        exact Bool.false_ne_true
      rw [if_neg noSign, Cursor.operand_of_not_isSignOf hSign]
      rfl

/-- A reader came to the value and to the place that an evaluation comes to. -/
structure Comes {V : Type} (table : PrecedenceTable) (source : String)
    (found : Option (V × Reader)) (value : V) (behind : Cursor) : Prop where
  found : found = some (value, .ofCursor behind)
  stands : behind.StandsIn table source

variable {V : Type} (interpretation : PureInterpretation V)

theorem Reader.comes_value? (hStands : cursor.StandsIn table source) :
    Comes table source ((ofCursor cursor).value? interpretation table source)
      (Id.run (interpretation.literal (cursor.operand table).1))
      (cursor.operand table).2.val := by
  refine ⟨?_, hStands.operand⟩
  rw [value?, operand?_eq hStands]
  rfl

/-- Every step takes an operator, so there are no more steps than tokens pending. -/
theorem Reader.comes_climb? {origin : Cursor} {minimum : Nat} {left : V}
    {cursor : origin.Onward} (hStands : cursor.val.StandsIn table source) {steps : Nat}
    (hSteps : cursor.val.pending < steps) :
    Comes table source
      (climb? interpretation table source steps minimum left (ofCursor cursor.val))
      (Id.run (Cursor.climb interpretation table origin minimum left cursor)).1
      (Id.run (Cursor.climb interpretation table origin minimum left cursor)).2.val := by
  induction origin, minimum, left, cursor using Cursor.climb.induct table generalizing steps with
  | case1 origin minimum left cursor hLevel =>
      have hToken : (ofCursor cursor.val).current.level? table = none := hLevel
      cases steps with
      | zero => contradiction
      | succ steps =>
          rw [climb?, hToken, Cursor.climb_of_level?_eq_none interpretation minimum left hLevel]
          exact ⟨rfl, hStands⟩
  | case3 origin minimum left cursor level hLevel hRank =>
      have hToken : (ofCursor cursor.val).current.level? table = some level := hLevel
      cases steps with
      | zero => contradiction
      | succ steps =>
          rw [climb?, hToken,
            Cursor.climb_of_rank_lt interpretation left hLevel (Nat.lt_of_not_le hRank)]
          exact ⟨if_neg hRank, hStands⟩
  | case2 origin minimum left cursor level hLevel hRank start text behind hOperand ihRight
      ihRest =>
      have hToken : (ofCursor cursor.val).current.level? table = some level := hLevel
      have moved := Cursor.pending_advance_lt table (Cursor.isEnd_eq_false_of_level? hLevel)
      obtain rfl : (start.operand table).2 = behind := congrArg Prod.snd hOperand
      have first := comes_value? interpretation hStands.advance
      cases steps with
      | zero => contradiction
      | succ steps =>
          -- Whatever is read from here on starts behind the operator.
          have fewer (behind : start.Onward) : behind.val.pending < steps :=
            Nat.lt_of_lt_of_le (Nat.lt_of_le_of_lt behind.property moved)
              (Nat.le_of_lt_succ hSteps)
          rw [climb?, hToken, Cursor.climb_of_le_rank interpretation left hLevel hRank]
          simp only [if_pos hRank, advance?_eq hStands, first.found, Option.bind_eq_bind,
            Option.bind_some]
          cases hNext : level.tighter? with
          | none => exact ihRest _ _ first.stands (fewer _)
          | some tighter =>
              have right : Comes table source (climb? interpretation table source steps
                  tighter.rank
                  (Id.run (interpretation.literal ((cursor.val.advance table).operand table).1))
                  (ofCursor ((cursor.val.advance table).operand table).2.val)) _ _ :=
                ihRight _ tighter first.stands (fewer _)
              simp only [right.found, Option.bind_some]
              exact ihRest _ _ right.stands (fewer _)

theorem evaluate?_eq (table : PrecedenceTable) (source : String) :
    evaluate? interpretation table source =
      some (Id.run (OperatorCalculator.evaluate interpretation table source)) := by
  have atStart := Cursor.standsIn_start table source
  have start : Reader.at? table source 0 =
      some (Reader.ofCursor (Cursor.start table source)) :=
    Reader.at?_eq (Scanner.standsIn_start source)
  have first := Reader.comes_value? interpretation atStart
  have fewer : ((Cursor.start table source).operand table).2.val.pending <
      source.utf8ByteSize + 1 := by
    have behind := ((Cursor.start table source).operand table).2.property
    have pending : (Cursor.start table source).pending ≤ source.toList.length :=
      Cursor.pending_ofScanner table (.start source)
    have length := Text.length_toList_le source
    omega
  have whole : Comes table source (Reader.climb? interpretation table source
      (source.utf8ByteSize + 1) 1
      (Id.run (interpretation.literal ((Cursor.start table source).operand table).1)) _) _ _ :=
    Reader.comes_climb? interpretation first.stands fewer
  rw [evaluate?, start]
  simp only [first.found, whole.found, Option.bind_eq_bind, Option.bind_some]
  rfl

/-! ### The same check -/

theorem operandFault?_eq {token : Token}
    (hTerminated : isTerminated? token = some token.isTerminated) :
    operandFault? table token = some (token.operandFault? table) := by
  rw [operandFault?, Token.operandFault?, hTerminated]
  split
  · rfl
  · cases token.kind == .quoted with
    | false => rfl
    | true =>
        cases token.isTerminated with
        | false => rfl
        | true => rfl

mutual

theorem faultAtOperand?_eq : (tokens : List Token) →
    (∀ token ∈ tokens, isTerminated? token = some token.isTerminated) →
    faultAtOperand? table tokens = some (OperatorCalculator.faultAtOperand? table tokens)
  | [], _ => rfl
  | [token], hTerminated => operandFault?_eq (hTerminated token List.mem_cons_self)
  | token :: next :: rest, hTerminated => by
      have behindToken := fun other member =>
        hTerminated other (List.mem_cons_of_mem token member)
      have behindNext := fun other member => behindToken other (List.mem_cons_of_mem next member)
      rw [faultAtOperand?, OperatorCalculator.faultAtOperand?,
        operandFault?_eq (hTerminated token List.mem_cons_self),
        faultBehindOperand?_eq rest behindNext, faultBehindOperand?_eq (next :: rest) behindToken,
        Option.bind_eq_bind, Option.bind_some]
      cases token.isSignOf next with
      | true => rfl
      | false =>
          cases token.operandFault? table with
          | none => rfl
          | some fault => rfl

theorem faultBehindOperand?_eq : (tokens : List Token) →
    (∀ token ∈ tokens, isTerminated? token = some token.isTerminated) →
    faultBehindOperand? table tokens = some (OperatorCalculator.faultBehindOperand? table tokens)
  | [], _ => rfl
  | token :: rest, hTerminated => by
      have behindToken := fun other member =>
        hTerminated other (List.mem_cons_of_mem token member)
      rw [faultBehindOperand?, OperatorCalculator.faultBehindOperand?,
        faultAtOperand?_eq rest behindToken]
      cases token.isEnd with
      | true => rfl
      | false =>
          cases token.isOperatorOf table with
          | true => rfl
          | false => rfl

end

theorem check?_eq (table : PrecedenceTable) (source : String) :
    check? table source = some (shapeFault? table source) := by
  rw [check?, tokenize?_eq, Option.bind_eq_bind, Option.bind_some, shapeFault?]
  exact faultAtOperand?_eq _ (fun _ member => isTerminated?_of_mem member)

theorem evaluateStrict?_eq (table : PrecedenceTable) (source : String) :
    evaluateStrict? interpretation table source =
      some (evaluateStrict interpretation table source) := by
  rw [evaluateStrict?, check?_eq, evaluate?_eq, evaluateStrict, Option.bind_eq_bind,
    Option.bind_some]
  cases shapeFault? table source with
  | some fault => rfl
  | none => rfl

end Sliced
end OperatorCalculator
