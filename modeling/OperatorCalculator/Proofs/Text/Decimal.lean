import Mathlib.Data.List.Forall2
import Mathlib.Data.Nat.Digits.Defs
import OperatorCalculator.Text.Blank
import OperatorCalculator.Text.Numeral

/-
Decimal numerals.

A numeral is one digit or more, and it is read as the number that its digits denote, however many
they are and whatever zeros are in front.  A plus in front changes nothing and a minus turns the
number around.
-/

set_option autoImplicit false

namespace OperatorCalculator
namespace Text

/-! ### Digits -/

/-- The digits with their values. -/
def decimalDigits : List (Char × Nat) :=
  "0123456789".toList.zipIdx

/-- There are digits, and they are those of the number, the highest one first. -/
structure Decimal (digits : List Char) (number : Nat) : Prop where
  nonempty : digits ≠ []
  denotes : ∃ values : List Nat,
    List.Forall₂ (fun digit value => (digit, value) ∈ decimalDigits) digits values ∧
      Nat.ofDigits 10 values.reverse = number

/-- What holds of the characters at low code points holds of a character at one of them. -/
theorem forall_of_codes {bound : Nat} (property : Char → Prop)
    (hCodes : ∀ code < bound, property (Char.ofNat code)) {character : Char}
    (hLow : character.toNat < bound) : property character := by
  have here := hCodes character.toNat hLow
  rwa [Char.ofNat_toNat] at here

theorem toNat_lt_of_isDigit {digit : Char} (hDigit : digit.isDigit = true) :
    digit.toNat < 58 := by
  have nine : '9'.toNat = 57 := rfl
  have bounds := Char.isDigit_iff_toNat.mp hDigit
  omega

def digitValue (digit : Char) : Nat := digit.toNat - '0'.toNat

theorem mem_decimalDigits_iff {digit : Char} {value : Nat} :
    (digit, value) ∈ decimalDigits ↔ digit.isDigit = true ∧ value = digitValue digit := by
  constructor
  · intro member
    have listed : ∀ pair ∈ decimalDigits, pair.1.isDigit = true ∧ pair.2 = digitValue pair.1 := by
      decide
    exact listed (digit, value) member
  · rintro ⟨hDigit, rfl⟩
    have listed := forall_of_codes
      (fun digit => digit.isDigit = true → (digit, digitValue digit) ∈ decimalDigits) (by decide)
      (toNat_lt_of_isDigit hDigit)
    exact listed hDigit

theorem forall₂_decimalDigits_iff {digits : List Char} {values : List Nat} :
    List.Forall₂ (fun digit value => (digit, value) ∈ decimalDigits) digits values ↔
      digits.all Char.isDigit = true ∧ values = digits.map digitValue := by
  induction digits generalizing values with
  | nil => simp
  | cons digit digits ih =>
      rw [List.forall₂_cons_left_iff, List.all_cons, Bool.and_eq_true, List.map_cons]
      constructor
      · rintro ⟨value, rest, hDigit, hRest, rfl⟩
        rcases mem_decimalDigits_iff.mp hDigit with ⟨isDigit, rfl⟩
        rcases ih.mp hRest with ⟨areDigits, rfl⟩
        exact ⟨⟨isDigit, areDigits⟩, rfl⟩
      · rintro ⟨⟨isDigit, areDigits⟩, rfl⟩
        exact ⟨_, _, mem_decimalDigits_iff.mpr ⟨isDigit, rfl⟩, ih.mpr ⟨areDigits, rfl⟩, rfl⟩

theorem Decimal.isDigit {digits : List Char} {number : Nat} (hDigits : Decimal digits number)
    {digit : Char} (hMember : digit ∈ digits) : digit.isDigit = true := by
  rcases hDigits.denotes with ⟨values, hValues, _⟩
  have areDigits := (forall₂_decimalDigits_iff.mp hValues).1
  exact List.all_eq_true.mp areDigits digit hMember

theorem ofDigitChars_eq_ofDigits (digits : List Char) :
    Nat.ofDigitChars 10 digits 0 = Nat.ofDigits 10 (digits.map digitValue).reverse := by
  induction digits with
  | nil => rfl
  | cons digit digits ih =>
      rw [Nat.ofDigitChars_cons, Nat.ofDigitChars_eq_ofDigitChars_zero, ih, List.map_cons,
        List.reverse_cons, Nat.ofDigits_append, Nat.ofDigits_singleton, List.length_reverse,
        List.length_map, Nat.mul_zero, Nat.zero_add, digitValue, Nat.add_comm]

theorem readDecimal?_eq_some_iff {digits : List Char} {number : Nat} :
    readDecimal? digits = some number ↔ Decimal digits number := by
  rw [readDecimal?]
  constructor
  · intro hRead
    split at hRead
    · rename_i hDigits
      rw [Bool.and_eq_true, Bool.not_eq_true', List.isEmpty_eq_false_iff] at hDigits
      rw [ofDigitChars_eq_ofDigits] at hRead
      exact ⟨hDigits.1, digits.map digitValue, forall₂_decimalDigits_iff.mpr ⟨hDigits.2, rfl⟩,
        Option.some.inj hRead⟩
    · contradiction
  · rintro ⟨nonempty, values, hValues, rfl⟩
    rcases forall₂_decimalDigits_iff.mp hValues with ⟨areDigits, rfl⟩
    rw [if_pos, ofDigitChars_eq_ofDigits]
    rw [Bool.and_eq_true, Bool.not_eq_true', List.isEmpty_eq_false_iff]
    exact ⟨nonempty, areDigits⟩

theorem decimal_repr (number : Nat) : Decimal number.repr.toList number :=
  readDecimal?_eq_some_iff.mp (readDecimal?_repr number)

/-! ### Signs -/

/-- A numeral that may have a plus in front. -/
inductive Unsigned : List Char → Nat → Prop
  | bare {digits : List Char} {number : Nat} (hDigits : Decimal digits number) :
      Unsigned digits number
  | plus {digits : List Char} {number : Nat} (hDigits : Decimal digits number) :
      Unsigned ('+' :: digits) number

/-- A numeral that may have a plus or a minus in front. -/
inductive Signed : List Char → Int → Prop
  | unsigned {characters : List Char} {number : Nat} (hNumeral : Unsigned characters number) :
      Signed characters number
  | minus {digits : List Char} {number : Nat} (hDigits : Decimal digits number) :
      Signed ('-' :: digits) (-(number : Int))

theorem Decimal.ne_cons {digits : List Char} {number : Nat} (hDigits : Decimal digits number)
    {sign : Char} (hSign : sign.isDigit = false) (rest : List Char) : digits ≠ sign :: rest := by
  rintro rfl
  have isDigit := hDigits.isDigit List.mem_cons_self
  rw [hSign] at isDigit
  contradiction

theorem readUnsigned?_eq_some_iff {characters : List Char} {number : Nat} :
    readUnsigned? characters = some number ↔ Unsigned characters number := by
  constructor
  · intro hRead
    unfold readUnsigned? at hRead
    split at hRead
    · exact .plus (readDecimal?_eq_some_iff.mp hRead)
    · exact .bare (readDecimal?_eq_some_iff.mp hRead)
  · intro hNumeral
    cases hNumeral with
    | bare hDigits =>
        exact readUnsigned?_of_readDecimal? (readDecimal?_eq_some_iff.mpr hDigits)
    | plus hDigits => exact readDecimal?_eq_some_iff.mpr hDigits

theorem readSigned?_eq_some_iff {characters : List Char} {number : Int} :
    readSigned? characters = some number ↔ Signed characters number := by
  constructor
  · intro hRead
    unfold readSigned? at hRead
    split at hRead
    · rcases Option.map_eq_some_iff.mp hRead with ⟨_, hMagnitude, rfl⟩
      rcases Option.bind_eq_some_iff.mp hMagnitude with ⟨magnitude, hDigits, hCast⟩
      cases hCast
      exact .minus (readDecimal?_eq_some_iff.mp hDigits)
    · rcases Option.map_eq_some_iff.mp hRead with ⟨_, hMagnitude, rfl⟩
      rcases Option.bind_eq_some_iff.mp hMagnitude with ⟨magnitude, hNumeral, hCast⟩
      cases hCast
      exact .unsigned (readUnsigned?_eq_some_iff.mp hNumeral)
  · intro hNumeral
    cases hNumeral with
    | unsigned hNumeral =>
        unfold readSigned?
        split
        · cases hNumeral with
          | bare hDigits => exact absurd rfl (hDigits.ne_cons rfl _)
        · rw [readUnsigned?_eq_some_iff.mpr hNumeral]
          rfl
    | minus hDigits =>
        rw [readSigned?, readDecimal?_eq_some_iff.mpr hDigits]
        rfl

theorem signed_toString (number : Int) : Signed (toString number).toList number := by
  cases number with
  | ofNat magnitude => exact .unsigned (.bare (decimal_repr magnitude))
  | negSucc magnitude =>
      have printed : (toString (Int.negSucc magnitude)).toList =
          '-' :: (magnitude + 1).repr.toList :=
        String.toList_append
      rw [printed]
      exact .minus (decimal_repr (magnitude + 1))

end Text
end OperatorCalculator
