import OperatorCalculator.Text.Quoted

/-
The values of the calculator.

A value is a whole number of bounded size, a truth value, a text, or a failure.
Failures are ordinary values that say why there is no other one; any operation
that one takes part in gives it back unchanged.
-/

set_option autoImplicit false

namespace OperatorCalculator

structure Integer where
  toInt : Int
  lower : -9223372036854775808 ≤ toInt
  upper : toInt ≤ 9223372036854775807
  deriving DecidableEq

def Integer.ofInt? (value : Int) : Option Integer :=
  if hRange : -9223372036854775808 ≤ value ∧ value ≤ 9223372036854775807 then
    some ⟨value, hRange.1, hRange.2⟩
  else
    none

theorem Integer.ofInt?_eq_some_iff {value : Int} {integer : Integer} :
    Integer.ofInt? value = some integer ↔ integer.toInt = value := by
  obtain ⟨inner, lower, upper⟩ := integer
  constructor
  · intro hSome
    unfold Integer.ofInt? at hSome
    split at hSome
    · simpa [eq_comm] using hSome
    · simp at hSome
  · rintro rfl
    exact dif_pos ⟨lower, upper⟩

theorem Integer.ofInt?_eq_none_iff {value : Int} :
    Integer.ofInt? value = none ↔
      value < -9223372036854775808 ∨ 9223372036854775807 < value := by
  unfold Integer.ofInt?
  split <;> simp <;> omega

inductive Failure where
  | illegalLiteral (token : String)
  /-- The operator means nothing between two operands of these kinds. -/
  | illegalOperation (left operator right : String)
  | divisionByZero (left operator right : String)
  | integerOverflow (left operator right : String)
  /-- The number of copies is negative, or the copies would be too long. -/
  | invalidRepeatCount (left right : String)
  /-- A failure that was reported from elsewhere. -/
  | reported (message : String)
  deriving DecidableEq

/-- The two operands and the operator as they stood in the expression. -/
def Failure.sketch (left operator right : String) : String :=
  "'" ++ left ++ " " ++ operator ++ " " ++ right ++ "'"

def Failure.message : Failure → String
  | .illegalLiteral token => "illegal literal '" ++ token ++ "'"
  | .illegalOperation left operator right =>
      "illegal operation: " ++ sketch left operator right
  | .divisionByZero left operator right =>
      "division by zero: " ++ sketch left operator right
  | .integerOverflow left operator right =>
      "integer overflow: " ++ sketch left operator right
  | .invalidRepeatCount left right =>
      "invalid repeat count: " ++ sketch left "*" right
  | .reported message => message

inductive Value where
  | integer (number : Integer)
  | boolean (truth : Bool)
  | text (characters : String)
  | failure (cause : Failure)
  deriving DecidableEq

namespace Value

def isFailure : Value → Bool
  | .failure _ => true
  | _ => false

/-- The printed form of a value.  Reading it as a literal gives the value back,
failures excepted. -/
def render : Value → String
  | .integer number => toString number.toInt
  | .boolean true => "true"
  | .boolean false => "false"
  | .text characters => Text.quote characters
  | .failure cause => cause.message

def describe : Value → String
  | .integer number => "Integer(" ++ toString number.toInt ++ ")"
  | .boolean truth => "Boolean(" ++ toString truth ++ ")"
  | .text characters => "String(" ++ Text.quote characters ++ ")"
  | .failure cause => "Error(" ++ Text.quote cause.message ++ ")"

end Value
end OperatorCalculator
