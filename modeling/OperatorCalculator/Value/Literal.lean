import OperatorCalculator.Value.Basic

/-
Literals.

A token is read as a whole number, else as a truth value, else as a quoted text.
No token can be read in two of these ways; one that can be read in none of them
is a failure, and so is the empty token.
-/

set_option autoImplicit false

namespace OperatorCalculator
namespace Value

def booleanLiteral? (token : String) : Option Bool :=
  if token ∈ ["true", "True", "TRUE", "t", "T"] then some true
  else if token ∈ ["false", "False", "FALSE", "f", "F"] then some false
  else none

def integerLiteral? (token : String) : Option Integer := do
  let value ← Text.readSigned? token.toList
  Integer.ofInt? value

def textLiteral? (token : String) : Option String :=
  (Text.decode? token.toList).map String.ofList

def ofLiteral (token : String) : Value :=
  match integerLiteral? token with
  | some number => .integer number
  | none =>
      match booleanLiteral? token with
      | some truth => .boolean truth
      | none =>
          match textLiteral? token with
          | some characters => .text characters
          | none => .failure (.illegalLiteral token)

end Value
end OperatorCalculator
