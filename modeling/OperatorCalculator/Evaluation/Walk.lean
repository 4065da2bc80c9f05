import OperatorCalculator.Evaluation.Climb

/-
Steps of a cursor.

A cursor can be asked for the token in view and for the rank at which that binds, and it can
be moved on: by one token, or behind an expression that is evaluated from here.  Steps may be
taken in any order, so an expression may also start at an operator or at the end of input.
-/

set_option autoImplicit false

namespace OperatorCalculator
namespace Cursor

inductive Step where
  | current
  | rank
  | advance
  | expression (minimum : Nat)
  deriving DecidableEq

inductive Reply (V : Type) where
  | token (token : Token)
  | rank? (rank? : Option Nat)
  | value (value : V)
  deriving DecidableEq

/-- What a step tells, and the cursor behind it.  The token that a cursor leaves is told. -/
def answer {V : Type} (interpretation : PureInterpretation V) (table : PrecedenceTable)
    (cursor : Cursor) : Step → Reply V × Cursor
  | .current => (.token cursor.current, cursor)
  | .rank => (.rank? ((cursor.level? table).map Level.rank), cursor)
  | .advance => (.token cursor.current, cursor.advance table)
  | .expression minimum =>
      let (value, behind) := Id.run (cursor.expression interpretation table minimum)
      (.value value, behind.val)

end Cursor
end OperatorCalculator
