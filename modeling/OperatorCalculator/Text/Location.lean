import OperatorCalculator.Text.Blank
import OperatorCalculator.Text.Offset

/-
Lines and columns.

A text is a list of lines, each with the newline that ends it.  A byte offset
between two characters lies in the line of the character behind it; an offset past
the last character lies at the end of the last line.  Lines count from one, columns
count the characters in front, and the text of a line leaves out the newline and
the carriage returns at its end.
-/

set_option autoImplicit false

namespace OperatorCalculator
namespace Text

structure Location where
  line : Nat
  text : List Char
  column : Nat
  deriving DecidableEq

def splitLines (characters : List Char) : List (List Char) :=
  match characters with
  | [] => []
  | '\n' :: rest => ['\n'] :: splitLines rest
  | character :: rest =>
      match splitLines rest with
      | [] => [[character]]
      | line :: lines => (character :: line) :: lines

def lineText (line : List Char) : List Char :=
  dropEndWhile (fun character => character == '\n' || character == '\r') line

/-- The location of an offset into some lines, the first of which has number `number`.
An offset inside a character has none. -/
def locateFrom? (number : Nat) : List (List Char) → Nat → Option Location
  | [], _ => some ⟨number, [], 0⟩
  | line :: lines, offset =>
      if offset < byteLength line then
        (cutAt? line offset).map fun (front, _) => ⟨number, lineText line, front.length⟩
      else if lines.isEmpty then
        some ⟨number, lineText line, (lineText line).length⟩
      else
        locateFrom? (number + 1) lines (offset - byteLength line)

def locate? (characters : List Char) (offset : Nat) : Option Location :=
  locateFrom? 1 (splitLines characters) offset

theorem splitLines_flatten (characters : List Char) :
    (splitLines characters).flatten = characters := by
  fun_induction splitLines characters <;> simp_all

end Text
end OperatorCalculator
