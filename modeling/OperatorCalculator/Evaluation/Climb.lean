import OperatorCalculator.Evaluation.Cursor
import OperatorCalculator.Evaluation.Interpretation

/-
Evaluation by precedence climbing.

An expression is an operand followed by operators and operands.  It is evaluated in
one pass and without a tree: an operator is applied as soon as its right operand is
complete, and a right operand takes in the operators that bind tighter.  So equal
levels group to the left.  Evaluation stops at the first token that is no operator
of the table; what follows is not looked at.
-/

set_option autoImplicit false

namespace OperatorCalculator

variable {m : Type → Type} [Monad m] {V : Type}

namespace Cursor

/-- Applies operators of rank `minimum` and above to the value on the left, for as long
as such operators are in view.  The cursor has moved on from `origin`. -/
def climb (interpretation : Interpretation m V) (table : PrecedenceTable)
    (origin : Cursor) (minimum : Nat) (left : V) (cursor : origin.Onward) :
    m (V × origin.Onward) :=
  match _hLevel : cursor.val.level? table with
  | none => pure (left, cursor)
  | some level =>
      if minimum ≤ level.rank then do
        let start := cursor.val.advance table
        let (text, behindOperand) := start.operand table
        let first ← interpretation.literal text
        let (right, behindRight) ←
          (match level.tighter? with
            | some tighter =>
                climb interpretation table start tighter.rank first behindOperand
            | none => pure (first, behindOperand))
        let combined ← interpretation.apply left cursor.val.current.text right
        climb interpretation table origin minimum combined (followOn cursor behindRight)
      else
        pure (left, cursor)
termination_by cursor.val.pending
decreasing_by
  all_goals have moved := pending_advance_lt table (isEnd_eq_false_of_level? _hLevel)
  · exact Nat.lt_of_le_of_lt behindOperand.property moved
  · exact Nat.lt_of_le_of_lt behindRight.property moved

theorem climb_of_level?_eq_none (interpretation : Interpretation m V)
    {table : PrecedenceTable} {origin : Cursor} (minimum : Nat) (left : V)
    {cursor : origin.Onward} (hLevel : cursor.val.level? table = none) :
    climb interpretation table origin minimum left cursor = pure (left, cursor) := by
  rw [climb]
  split
  · rfl
  · rename_i hSome
    rw [hLevel] at hSome
    contradiction

theorem climb_of_rank_lt (interpretation : Interpretation m V)
    {table : PrecedenceTable} {origin : Cursor} {minimum : Nat} (left : V)
    {cursor : origin.Onward} {level : Level} (hLevel : cursor.val.level? table = some level)
    (hRank : level.rank < minimum) :
    climb interpretation table origin minimum left cursor = pure (left, cursor) := by
  rw [climb]
  split
  · rfl
  · rename_i found hFound
    obtain rfl : found = level := Option.some.inj (hFound.symm.trans hLevel)
    exact if_neg (Nat.not_le.mpr hRank)

theorem climb_of_le_rank (interpretation : Interpretation m V)
    {table : PrecedenceTable} {origin : Cursor} {minimum : Nat} (left : V)
    {cursor : origin.Onward} {level : Level} (hLevel : cursor.val.level? table = some level)
    (hRank : minimum ≤ level.rank) :
    climb interpretation table origin minimum left cursor = (do
      let start := cursor.val.advance table
      let first ← interpretation.literal (start.operand table).1
      let right ←
        (match level.tighter? with
          | some tighter =>
              climb interpretation table start tighter.rank first (start.operand table).2
          | none => pure (first, (start.operand table).2))
      let combined ← interpretation.apply left cursor.val.current.text right.1
      climb interpretation table origin minimum combined (followOn cursor right.2)) := by
  rw [climb]
  split
  · rename_i hNone
    rw [hLevel] at hNone
    contradiction
  · rename_i found hFound
    obtain rfl : found = level := Option.some.inj (hFound.symm.trans hLevel)
    exact if_pos hRank

/-- Evaluates the longest expression from a cursor on whose operators all have rank
`minimum` or above.  The cursor behind it is on the first token not taken in. -/
def expression (interpretation : Interpretation m V) (table : PrecedenceTable)
    (minimum : Nat) (cursor : Cursor) : m (V × cursor.Onward) := do
  let (text, behindOperand) := cursor.operand table
  let first ← interpretation.literal text
  climb interpretation table cursor minimum first behindOperand

end Cursor

/-- Evaluates an expression.  There is always a value: what is malformed shows in the
texts that the interpretation gets to see. -/
def evaluate (interpretation : Interpretation m V) (table : PrecedenceTable)
    (source : String) : m V := do
  let (value, _) ← (Cursor.start table source).expression interpretation table 1
  return value

end OperatorCalculator
