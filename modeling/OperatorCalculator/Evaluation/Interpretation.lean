/-
Interpretations of an expression.

An interpretation says what the operands and the operators of an expression stand
for.  Each making of an operand and each application of an operator is one step of
a monad, so an interpretation may also keep records or stop early.
-/

set_option autoImplicit false

namespace OperatorCalculator

/-- What operands and operators stand for. -/
structure Interpretation (m : Type → Type) (V : Type) where
  /-- Makes an operand from its text. -/
  literal : String → m V
  /-- Applies an operator to the operands on its left and on its right. -/
  apply : V → String → V → m V

abbrev PureInterpretation (V : Type) := Interpretation Id V

end OperatorCalculator
