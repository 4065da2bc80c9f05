/-
Decimal and hexadecimal numerals.

A decimal numeral is one or more ASCII digits, with any number of leading zeros;
a signed one may have a plus or a minus in front.  Values are exact, whatever the
length of the numeral.
-/

set_option autoImplicit false

namespace OperatorCalculator
namespace Text

def readDecimal? (characters : List Char) : Option Nat :=
  if !characters.isEmpty && characters.all Char.isDigit then
    some (Nat.ofDigitChars 10 characters 0)
  else
    none

def readUnsigned? : List Char → Option Nat
  | '+' :: digits => readDecimal? digits
  | digits => readDecimal? digits

def readSigned? : List Char → Option Int
  | '-' :: digits => (readDecimal? digits).map fun magnitude => -(magnitude : Int)
  | digits => (readUnsigned? digits).map fun magnitude => (magnitude : Int)

def hexDigit? (character : Char) : Option Nat :=
  if character.isDigit then some (character.toNat - '0'.toNat)
  else if 'a' ≤ character && character ≤ 'f' then some (character.toNat - 'a'.toNat + 10)
  else if 'A' ≤ character && character ≤ 'F' then some (character.toNat - 'A'.toNat + 10)
  else none

def isHexDigit (character : Char) : Bool :=
  (hexDigit? character).isSome

/-- The value of hexadecimal digits read after `value`, if all are digits. -/
def readHexFrom? (value : Nat) : List Char → Option Nat
  | [] => some value
  | character :: rest =>
      (hexDigit? character).bind fun digit => readHexFrom? (16 * value + digit) rest

def readHex? (characters : List Char) : Option Nat :=
  if characters.isEmpty then none else readHexFrom? 0 characters

theorem readDecimal?_toDigits (number : Nat) :
    readDecimal? (Nat.toDigits 10 number) = some number := by
  have digits : (Nat.toDigits 10 number).all Char.isDigit = true := by
    rw [List.all_eq_true]
    intro character member
    exact Nat.isDigit_of_mem_toDigits (by decide) (by decide) member
  have nonempty : Nat.toDigits 10 number ≠ [] := by
    simp
  rw [readDecimal?, if_pos (by simp [digits, nonempty])]
  rw [Nat.ofDigitChars_toDigits (by decide) (by decide)]

theorem toList_repr (number : Nat) : number.repr.toList = Nat.toDigits 10 number := by
  rw [Nat.repr_eq_ofList_toDigits, String.toList_ofList]

theorem isDigit_of_mem_repr {number : Nat} {character : Char}
    (hMember : character ∈ number.repr.toList) : character.isDigit = true := by
  rw [toList_repr] at hMember
  exact Nat.isDigit_of_mem_toDigits (by decide) (by decide) hMember

theorem readDecimal?_repr (number : Nat) : readDecimal? number.repr.toList = some number := by
  rw [toList_repr, readDecimal?_toDigits]

theorem readUnsigned?_of_readDecimal? {digits : List Char} {number : Nat}
    (hRead : readDecimal? digits = some number) : readUnsigned? digits = some number := by
  unfold readUnsigned?
  split
  · contradiction
  · exact hRead

/-! ### Hexadecimal digits that were written -/

theorem hexDigit?_digitChar {digit : Nat} (hDigit : digit < 16) :
    hexDigit? digit.digitChar = some digit := by
  have all : ∀ digit < 16, hexDigit? digit.digitChar = some digit := by
    decide
  exact all digit hDigit

theorem readHexFrom?_append (value : Nat) (front back : List Char) :
    readHexFrom? value (front ++ back) =
      (readHexFrom? value front).bind fun front => readHexFrom? front back := by
  induction front generalizing value with
  | nil => rfl
  | cons character front ih =>
      rw [List.cons_append, readHexFrom?, readHexFrom?]
      cases hexDigit? character with
      | none => rfl
      | some digit => exact ih (16 * value + digit)

theorem readHexFrom?_toDigits (number : Nat) :
    readHexFrom? 0 (Nat.toDigits 16 number) = some number := by
  induction number using Nat.strongRecOn with
  | ind number ih =>
      rw [Nat.toDigits_eq_if (by decide)]
      split
      · rename_i single
        simp only [readHexFrom?, hexDigit?_digitChar single, Option.bind_some, Nat.mul_zero,
          Nat.zero_add]
      · have shorter : number / 16 < number := by omega
        have last : number % 16 < 16 := Nat.mod_lt number (by decide)
        rw [readHexFrom?_append, ih (number / 16) shorter, Option.bind_some]
        simp only [readHexFrom?, hexDigit?_digitChar last, Option.bind_some,
          Nat.div_add_mod]

theorem readHex?_toDigits (number : Nat) :
    readHex? (Nat.toDigits 16 number) = some number := by
  rw [readHex?, if_neg (by simp), readHexFrom?_toDigits]

end Text
end OperatorCalculator
