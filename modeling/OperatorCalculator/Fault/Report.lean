import OperatorCalculator.Fault.Basic
import OperatorCalculator.Text.Location

/-
Reports.

A report shows a fault inside its expression: a heading, the line in question
behind its number, and below it a caret under the character where the fault shows.
The bars of the margin stand in one column, however many digits the number has.
-/

set_option autoImplicit false

namespace OperatorCalculator

def padLeft (width : Nat) (text : List Char) : List Char :=
  List.replicate (width - text.length) ' ' ++ text

def Cause.heading (cause : Cause) : String :=
  match cause.tip? with
  | some tip => "Error: " ++ cause.name ++ " (" ++ tip ++ ")"
  | none => "Error: " ++ cause.name

def Cause.reportLines (cause : Cause) (location : Text.Location) : List String :=
  let number := toString location.line
  let margin := String.ofList (padLeft (number.length + 2) ['|'])
  let caret := String.ofList (padLeft (location.column + 1) ['^'])
  [cause.heading,
   margin,
   number ++ " | " ++ String.ofList location.text,
   margin ++ " " ++ caret]

/-- The report on a fault of an expression.  There is none if the place of the fault
lies inside a character. -/
def Fault.report? (fault : Fault) (source : String) : Option String :=
  (Text.locate? source.toList fault.position).map fun location =>
    "\n".intercalate (fault.cause.reportLines location)

end OperatorCalculator
