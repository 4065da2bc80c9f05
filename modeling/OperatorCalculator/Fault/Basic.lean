import OperatorCalculator.Text.Quoted

/-
Faults.

A fault is what is wrong with the shape of an expression, or with an entry for a
precedence table, and where it shows.  An entry has no place inside an expression,
so its message names none.
-/

set_option autoImplicit false

namespace OperatorCalculator

inductive Cause where
  /-- An operator, or the end if the text is empty, stands where an operand should. -/
  | expectedOperand (found : String)
  /-- Something follows a complete expression. -/
  | trailingInput (found : String)
  /-- A quoted text has no closing quote. -/
  | unterminatedString (found : String)
  /-- An entry is not an operator and a level. -/
  | invalidPrecedence (entry : String)
  deriving DecidableEq

namespace Cause

def name : Cause → String
  | .expectedOperand _ => "ExpectedOperand"
  | .trailingInput _ => "TrailingInput"
  | .unterminatedString _ => "UnterminatedString"
  | .invalidPrecedence _ => "InvalidPrecedence"

def message : Cause → String
  | .expectedOperand found => "expected operand, found " ++ Text.quote found
  | .trailingInput found => "unexpected trailing input: " ++ Text.quote found
  | .unterminatedString found => "unterminated string literal: " ++ found
  | .invalidPrecedence entry =>
      "invalid precedence entry " ++ Text.quote entry ++ ": expected OP=N with N >= 1"

def tip? : Cause → Option String
  | .expectedOperand found =>
      if found.isEmpty then
        some "Expression ends where an operand was expected"
      else
        some ("Expected an operand, found operator `" ++ found ++ "`")
  | .trailingInput found =>
      some ("Unexpected `" ++ found ++ "` after a complete expression")
  | .unterminatedString _ => some "String literal is missing its closing quote"
  | .invalidPrecedence _ => none

def hasPlace : Cause → Bool
  | .invalidPrecedence _ => false
  | _ => true

end Cause

structure Fault where
  cause : Cause
  position : Nat
  deriving DecidableEq

def Fault.message (fault : Fault) : String :=
  if fault.cause.hasPlace then
    fault.cause.message ++ " at offset " ++ toString fault.position
  else
    fault.cause.message

end OperatorCalculator
