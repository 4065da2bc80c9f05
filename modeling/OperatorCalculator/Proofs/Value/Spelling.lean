import OperatorCalculator.Proofs.Token.Quoted
import OperatorCalculator.Proofs.Value.Classes

/-
How literals are spelled.

A literal that stands for a value is a word, a sign with a word behind it, or a quoted
text with nothing behind its closing quote.  Which of the three it is decides how a
scanner takes it; the value does not matter.
-/

set_option autoImplicit false

namespace OperatorCalculator

/-! ### The forms of a literal -/

/-- The characters of a literal that stands for a value. -/
inductive Spelling : List Char → Prop
  | word {word : List Char} (hSome : word ≠ []) (hWord : word.all isWordCharacter = true) :
      Spelling word
  | signed {sign : Char} {word : List Char} (hSign : sign = '+' ∨ sign = '-')
      (hSome : word ≠ []) (hWord : word.all isWordCharacter = true) : Spelling (sign :: word)
  | quoted {body : List Char} (hBody : Inert body) : Spelling ('"' :: (body ++ ['"']))

theorem Text.Decimal.isWord {digits : List Char} {number : Nat} (hDigits : Decimal digits number) :
    digits.all isWordCharacter = true := by
  apply List.all_eq_true.mpr
  intro digit member
  simp only [isWordCharacter, Char.isAlphanum, hDigits.isDigit member, Bool.or_true, Bool.true_or]

theorem Text.Unsigned.spelling {characters : List Char} {number : Nat}
    (hNumeral : Unsigned characters number) : Spelling characters := by
  cases hNumeral with
  | bare hDigits => exact .word hDigits.nonempty hDigits.isWord
  | plus hDigits => exact .signed (Or.inl rfl) hDigits.nonempty hDigits.isWord

theorem Text.Signed.spelling {characters : List Char} {number : Int}
    (hNumeral : Signed characters number) : Spelling characters := by
  cases hNumeral with
  | unsigned hNumeral => exact hNumeral.spelling
  | minus hDigits => exact .signed (Or.inr rfl) hDigits.nonempty hDigits.isWord

namespace Value

theorem spelling_of_mem_words {token : String} {truth : Bool} (hWord : token ∈ words truth) :
    Spelling token.toList := by
  have areWords : ∀ truth, ∀ word ∈ words truth,
      word.toList ≠ [] ∧ word.toList.all isWordCharacter = true := by
    decide
  obtain ⟨hSome, isWord⟩ := areWords truth token hWord
  exact .word hSome isWord

theorem spelling_of_isFailure_ofLiteral {literal : String}
    (hLiteral : (ofLiteral literal).isFailure = false) : Spelling literal.toList := by
  cases hValue : ofLiteral literal with
  | failure cause =>
      rw [hValue] at hLiteral
      contradiction
  | integer number =>
      cases ofLiteral_eq_iff.mp hValue with
      | integer hNumeral => exact hNumeral.spelling
  | boolean truth =>
      cases ofLiteral_eq_iff.mp hValue with
      | boolean hWord => exact spelling_of_mem_words hWord
  | text characters =>
      cases ofLiteral_eq_iff.mp hValue with
      | text hText =>
          rcases Option.map_eq_some_iff.mp hText with ⟨decoded, hDecoded, _⟩
          rcases Text.inert_of_decode? hDecoded with ⟨body, hBody, inert⟩
          rw [hBody]
          exact .quoted inert

end Value

/-! ### Literals without a sign -/

def isSigned : List Char → Bool
  | '+' :: _ => true
  | '-' :: _ => true
  | _ => false

theorem isSigned_eq_false {first : Char} (hPlus : first ≠ '+') (hMinus : first ≠ '-')
    (rest : List Char) : isSigned (first :: rest) = false := by
  unfold isSigned
  split
  · rename_i equality
    exact absurd (List.cons.inj equality).1 hPlus
  · rename_i equality
    exact absurd (List.cons.inj equality).1 hMinus
  · rfl

theorem isSigned_of_word {word : List Char} (hWord : word.all isWordCharacter = true) :
    isSigned word = false := by
  cases word with
  | nil => rfl
  | cons first rest =>
      have hFirst : isWordCharacter first = true := (Bool.and_eq_true_iff.mp hWord).1
      apply isSigned_eq_false
      · rintro rfl
        contradiction
      · rintro rfl
        contradiction

end OperatorCalculator
