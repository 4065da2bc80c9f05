import OperatorCalculator.Fault.Basic
import OperatorCalculator.PrecedenceTable.Basic
import OperatorCalculator.Text.Blank
import OperatorCalculator.Token.Basic

/-
Written entries of a precedence table.

An entry is an operator, an equals sign and a rank.  The operator may hold equals
signs itself, since the last one divides the entry.  The rank is a decimal numeral
with an optional plus; blanks around it are dropped.
-/

set_option autoImplicit false

namespace OperatorCalculator
namespace PrecedenceTable

/-- The characters before and behind the last equals sign. -/
def splitAtLastEquals? : List Char → Option (List Char × List Char)
  | [] => none
  | character :: rest =>
      match splitAtLastEquals? rest with
      | some (front, back) => some (character :: front, back)
      | none => if character = '=' then some ([], rest) else none

def levelOfText? (characters : List Char) : Option Level :=
  (Text.readUnsigned? (Text.trim characters)).bind Level.ofRank?

/-- The character is no ASCII letter, digit, underscore or double quote, and stands behind the
space in code point order. -/
def isOperatorCharacter (character : Char) : Bool :=
  !(character.isAlphanum || character == '_' || character == '"' || decide (character ≤ ' '))

/-- Operators are written with the characters that the scanner makes operators of. -/
theorem isOperatorCharacter_eq_isSymbol (character : Char) :
    isOperatorCharacter character = isSymbol character := by
  have gap : decide (character ≤ ' ') = isGap character :=
    decide_eq_decide.mpr UInt32.le_iff_toNat_le
  rw [isOperatorCharacter, gap, ← isWordCharacter, isSymbol, Bool.not_or, Bool.not_or,
    Bool.and_comm, ← Bool.and_assoc]
  rfl

/-- The characters can be an operator between any two words. -/
def isOperatorText (characters : List Char) : Bool :=
  !characters.isEmpty && characters.all isOperatorCharacter

theorem isOperatorText_iff {characters : List Char} :
    isOperatorText characters = true ↔ characters ≠ [] ∧ characters.all isSymbol = true := by
  have same : isOperatorCharacter = isSymbol := funext isOperatorCharacter_eq_isSymbol
  rw [isOperatorText, Bool.and_eq_true, Bool.not_eq_true', ← Bool.not_eq_true,
    List.isEmpty_iff, same]

def readEntry? (entry : String) : Option (String × Level) := do
  let (operator, rank) ← splitAtLastEquals? entry.toList
  let level ← levelOfText? rank
  if isOperatorText operator then some (String.ofList operator, level) else none

/-- The operator and the level of an entry, or the fault of what is not one. -/
def parseEntry (entry : String) : Except Fault (String × Level) :=
  match readEntry? entry with
  | some parsed => .ok parsed
  | none => .error ⟨.invalidPrecedence entry, 0⟩

end PrecedenceTable
end OperatorCalculator
