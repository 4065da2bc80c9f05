import OperatorCalculator.Text.Concealed
import OperatorCalculator.Text.Numeral

/-
Quoted text.

A quoted text stands between double quotes.  Writing escapes the double quote, the
backslash, four control characters with short names, and every concealed character
by its code point.  Reading accepts more than writing produces: it also knows the
escaped apostrophe and the hexadecimal forms of two, four, or one to six digits,
and it refuses everything that does not name a Unicode scalar value.
-/

set_option autoImplicit false

namespace OperatorCalculator
namespace Text

/-! ### Writing -/

/-- The braced form of a code point, in lower case and without padding. -/
def escapeByCodePoint (character : Char) : List Char :=
  ['\\', 'u', '{'] ++ Nat.toDigits 16 character.toNat ++ ['}']

def escape (concealed : Char → Bool) (character : Char) : List Char :=
  match character with
  | '\x00' => ['\\', '0']
  | '\t' => ['\\', 't']
  | '\r' => ['\\', 'r']
  | '\n' => ['\\', 'n']
  | '"' => ['\\', '"']
  | '\\' => ['\\', '\\']
  | other => if concealed other then escapeByCodePoint other else [other]

/-- The quoted form of a text, when `concealed` decides what is written by code point. -/
def encode (concealed : Char → Bool) (characters : List Char) : List Char :=
  '"' :: characters.flatMap (escape concealed) ++ ['"']

def quote (text : String) : String :=
  String.ofList (encode isConcealed text.toList)

/-! ### Reading -/

def scalar? (codePoint : Nat) : Option Char :=
  if codePoint.isValidChar then some (Char.ofNat codePoint) else none

def asciiOfHex? (digits : List Char) : Option Char := do
  let codePoint ← readHex? digits
  if codePoint < 0x80 then scalar? codePoint else none

def scalarOfHex? (digits : List Char) : Option Char := do
  let codePoint ← readHex? digits
  scalar? codePoint

def readBraced? (characters : List Char) : Option (Char × List Char) :=
  match characters.dropWhile isHexDigit with
  | '}' :: rest =>
      let digits := characters.takeWhile isHexDigit
      if digits.length ≤ 6 then
        (scalarOfHex? digits).map fun character => (character, rest)
      else
        none
  | _ => none

def readEscape? : List Char → Option (Char × List Char)
  | 'n' :: rest => some ('\n', rest)
  | 't' :: rest => some ('\t', rest)
  | 'r' :: rest => some ('\r', rest)
  | '0' :: rest => some ('\x00', rest)
  | '\\' :: rest => some ('\\', rest)
  | '"' :: rest => some ('"', rest)
  | '\'' :: rest => some ('\'', rest)
  | 'x' :: high :: low :: rest =>
      (asciiOfHex? [high, low]).map fun character => (character, rest)
  | 'u' :: '{' :: rest => readBraced? rest
  | 'u' :: first :: second :: third :: fourth :: rest =>
      (scalarOfHex? [first, second, third, fourth]).map fun character => (character, rest)
  | _ => none

/-- Reads one item of a quoted text: the character that it stands for, and the rest. -/
def readItem? : List Char → Option (Char × List Char)
  | [] => none
  | '"' :: _ => none
  | '\\' :: rest => readEscape? rest
  | character :: rest => some (character, rest)

theorem readBraced?_length {characters rest : List Char} {character : Char}
    (hRead : readBraced? characters = some (character, rest)) :
    rest.length < characters.length := by
  have shorter : (characters.dropWhile isHexDigit).length ≤ characters.length :=
    (List.dropWhile_suffix isHexDigit).length_le
  unfold readBraced? at hRead
  split at hRead
  · rename_i afterBrace hAfter
    rw [hAfter, List.length_cons] at shorter
    simp only at hRead
    split at hRead
    · simp only [Option.map_eq_some_iff, Prod.mk.injEq] at hRead
      obtain ⟨_, _, _, rfl⟩ := hRead
      omega
    · simp at hRead
  · simp at hRead

theorem readEscape?_length {characters rest : List Char} {character : Char}
    (hRead : readEscape? characters = some (character, rest)) :
    rest.length < characters.length := by
  unfold readEscape? at hRead
  split at hRead
  case h_9 braced =>
    have shorter := readBraced?_length hRead
    simp only [List.length_cons]
    omega
  all_goals
    simp only [Option.map_eq_some_iff, Option.some.injEq, Prod.mk.injEq,
      reduceCtorEq] at hRead
  case h_8 | h_10 =>
    obtain ⟨_, _, _, rfl⟩ := hRead
    simp only [List.length_cons]
    omega
  all_goals
    obtain ⟨_, rfl⟩ := hRead
    simp

theorem readItem?_length {characters rest : List Char} {character : Char}
    (hRead : readItem? characters = some (character, rest)) :
    rest.length < characters.length := by
  unfold readItem? at hRead
  split at hRead
  · simp at hRead
  · simp at hRead
  · have shorter := readEscape?_length hRead
    simp only [List.length_cons]
    omega
  · simp only [Option.some.injEq, Prod.mk.injEq] at hRead
    obtain ⟨_, rfl⟩ := hRead
    simp

/-- Reads items up to a double quote that must end the text. -/
def decodeItems? (characters : List Char) : Option (List Char) :=
  if characters = ['"'] then
    some []
  else
    match _hRead : readItem? characters with
    | none => none
    | some (character, rest) => (decodeItems? rest).map (character :: ·)
termination_by characters.length
decreasing_by exact readItem?_length _hRead

def decode? : List Char → Option (List Char)
  | '"' :: rest => decodeItems? rest
  | _ => none

end Text
end OperatorCalculator
