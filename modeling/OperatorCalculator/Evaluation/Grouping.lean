import OperatorCalculator.Evaluation.Climb

/-
Groupings.

A grouping is the tree of an expression: it shows which operands each operator
takes.  Interpreting operands as leaves and operators as nodes makes evaluation
yield the grouping itself.
-/

set_option autoImplicit false

namespace OperatorCalculator

/-- How operators and operands belong together. -/
inductive Grouping where
  | operand (text : String)
  | application (left : Grouping) (operator : String) (right : Grouping)
  deriving DecidableEq

namespace Grouping

/-- Each operand stands for itself, each application for its tree. -/
def interpretation : PureInterpretation Grouping where
  literal text := .operand text
  apply left operator right := .application left operator right

def ofSource (table : PrecedenceTable) (source : String) : Grouping :=
  evaluate interpretation table source

/-- The grouping with a pair of brackets around each operand and parentheses around
each application. -/
def render : Grouping → String
  | .operand text => "[" ++ text ++ "]"
  | .application left operator right =>
      "(" ++ left.render ++ " " ++ operator ++ " " ++ right.render ++ ")"

end Grouping

/-! ### The order of steps -/

inductive Call where
  | literal (text : String)
  | apply (operator : String)
  deriving DecidableEq

/-- The same interpretation, with a list of the steps in the order they happen. -/
def Interpretation.logged {V : Type} (interpretation : PureInterpretation V) :
    Interpretation (StateM (Array Call)) V where
  literal text := do
    modify (·.push (.literal text))
    return interpretation.literal text
  apply left operator right := do
    modify (·.push (.apply operator))
    return interpretation.apply left operator right

end OperatorCalculator
