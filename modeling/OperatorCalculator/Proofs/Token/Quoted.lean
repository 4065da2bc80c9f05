import OperatorCalculator.Proofs.Text.Items
import OperatorCalculator.Token.Scanner

/-
Where a quoted text ends.

The scanner and the reading of escapes have to agree on the double quote that closes
a quoted text, although one only skips the character behind a backslash and the other
knows every escape.  What stands in front of that double quote is inert: it hides no
double quote that follows and lays none bare.
-/

set_option autoImplicit false

namespace OperatorCalculator

/-! ### Backslashes in front of a double quote -/

/-- How many backslashes stand at the end of a text. -/
def trailingBackslashes (characters : List Char) : Nat :=
  (characters.reverse.takeWhile (· == '\\')).length

theorem trailingBackslashes_cons_of_ne {character : Char} (hBackslash : character ≠ '\\')
    (rest : List Char) : trailingBackslashes (character :: rest) = trailingBackslashes rest := by
  unfold trailingBackslashes
  rw [List.reverse_cons, List.takeWhile_append]
  split
  · rename_i whole
    simpa [hBackslash] using whole.symm
  · rfl

/-- A backslash and the character that it hides make no difference to the parity. -/
theorem trailingBackslashes_hidden (character : Char) (rest : List Char) :
    trailingBackslashes ('\\' :: character :: rest) % 2 = trailingBackslashes rest % 2 := by
  unfold trailingBackslashes
  rw [List.reverse_cons, List.reverse_cons, List.append_assoc, List.takeWhile_append]
  split
  · rename_i whole
    rw [whole, List.singleton_append, List.length_append]
    by_cases hBackslash : character = '\\'
    · have pair : ([character, '\\'].takeWhile (· == '\\')).length = 2 := by
        simp [hBackslash]
      omega
    · have none : ([character, '\\'].takeWhile (· == '\\')).length = 0 := by
        simp [hBackslash]
      omega
  · rfl

theorem Token.endsInQuote_iff {characters : List Char} :
    Token.endsInQuote characters = true ↔
      ∃ inner, characters = '"' :: (inner ++ ['"']) ∧ trailingBackslashes inner % 2 = 0 := by
  constructor
  · intro hEnds
    unfold Token.endsInQuote at hEnds
    split at hEnds
    · rename_i rest
      split at hEnds
      · rename_i backwards hBackwards
        refine ⟨backwards.reverse, ?_, ?_⟩
        · rw [← List.reverse_cons, ← hBackwards, List.reverse_reverse]
        · unfold trailingBackslashes
          rw [List.reverse_reverse]
          exact beq_iff_eq.mp hEnds
      · contradiction
    · contradiction
  · intro closed
    rcases closed with ⟨inner, rfl, even⟩
    unfold trailingBackslashes at even
    simp only [Token.endsInQuote, List.reverse_append, List.reverse_singleton,
      List.singleton_append, even, beq_self_eq_true]

theorem Token.isTerminated_of_quoted {token : Token} (hQuoted : token.kind = .quoted) :
    token.isTerminated = Token.endsInQuote token.text.toList := by
  unfold Token.isTerminated
  rw [hQuoted]
  rfl

/-! ### Inert characters -/

/-- Each backslash hides the character behind it, and no double quote is left unhidden. -/
inductive Inert : List Char → Prop
  | nil : Inert []
  | hidden (character : Char) {rest : List Char} (hRest : Inert rest) :
      Inert ('\\' :: character :: rest)
  | plain {character : Char} {rest : List Char} (hQuote : character ≠ '"')
      (hBackslash : character ≠ '\\') (hRest : Inert rest) : Inert (character :: rest)

namespace Inert

theorem append {front back : List Char} (hFront : Inert front) (hBack : Inert back) :
    Inert (front ++ back) := by
  induction hFront with
  | nil => exact hBack
  | hidden character _ ih => exact .hidden character ih
  | plain hQuote hBackslash _ ih => exact .plain hQuote hBackslash ih

theorem of_all {characters : List Char}
    (hAll : ∀ character ∈ characters, character ≠ '"' ∧ character ≠ '\\') :
    Inert characters := by
  induction characters with
  | nil => exact .nil
  | cons character rest ih =>
      have here := hAll character List.mem_cons_self
      have behind := fun other member => hAll other (List.mem_cons_of_mem character member)
      exact .plain here.1 here.2 (ih behind)

/-! ### Inert characters and the scanner -/

theorem splitQuoted_append {front : List Char} (hFront : Inert front) (rest : List Char) :
    splitQuoted (front ++ '"' :: rest) = (front ++ ['"'], rest) := by
  induction hFront with
  | nil => rw [List.nil_append, splitQuoted, List.nil_append]
  | hidden character _ ih =>
      simp only [List.cons_append]
      rw [splitQuoted, ih]
  | @plain character front hQuote hBackslash _ ih =>
      simp only [List.cons_append]
      rw [splitQuoted, ih]
      · exact hQuote
      · intro nothing
        contradiction
      · intro other others
        exact fun equality => absurd equality hBackslash

/-- Backslashes at the end of inert characters escape one another. -/
theorem even_backslashes {characters : List Char} (hInert : Inert characters) :
    trailingBackslashes characters % 2 = 0 := by
  induction hInert with
  | nil => rfl
  | hidden character _ ih => rw [trailingBackslashes_hidden, ih]
  | plain _ hBackslash _ ih => rw [trailingBackslashes_cons_of_ne hBackslash, ih]

/-- A double quote among inert characters is hidden by the last of the backslashes before it. -/
theorem odd_backslashes {front back : List Char} (hInert : Inert (front ++ '"' :: back)) :
    trailingBackslashes front % 2 = 1 := by
  generalize hBody : front ++ '"' :: back = body at hInert
  induction hInert generalizing front with
  | nil => simp at hBody
  | hidden character _ ih =>
      cases front with
      | nil =>
          have same := (List.cons.inj hBody).1
          contradiction
      | cons first front =>
          rcases List.cons.inj hBody with ⟨rfl, behind⟩
          cases front with
          | nil => rfl
          | cons second front =>
              rcases List.cons.inj behind with ⟨rfl, others⟩
              rw [trailingBackslashes_hidden, ih others]
  | plain hQuote hBackslash _ ih =>
      cases front with
      | nil => exact absurd (List.cons.inj hBody).1.symm hQuote
      | cons first front =>
          rcases List.cons.inj hBody with ⟨rfl, others⟩
          rw [trailingBackslashes_cons_of_ne hBackslash, ih others]

theorem endsInQuote {body : List Char} (hBody : Inert body) :
    Token.endsInQuote ('"' :: (body ++ ['"'])) = true :=
  Token.endsInQuote_iff.mpr ⟨body, rfl, hBody.even_backslashes⟩

end Inert

/-! ### Texts that nothing closes -/

/-- Each double quote stands behind an odd number of backslashes, so none closes a text. -/
def Unclosed (characters : List Char) : Prop :=
  ∀ inner after, characters = inner ++ '"' :: after → trailingBackslashes inner % 2 = 1

theorem Inert.unclosed {body : List Char} (hBody : Inert body) : Unclosed body := by
  intro inner after hSplit
  rw [hSplit] at hBody
  exact hBody.odd_backslashes

theorem Inert.unclosed_backslash {body : List Char} (hBody : Inert body) :
    Unclosed (body ++ ['\\']) := by
  intro inner after hSplit
  rcases List.eq_nil_or_concat after with rfl | ⟨middle, last, rfl⟩
  · have ends := (List.append_inj' hSplit rfl).2
    contradiction
  · rw [List.concat_eq_append, ← List.cons_append, ← List.append_assoc] at hSplit
    exact hBody.unclosed inner middle (List.append_inj' hSplit rfl).1

theorem Unclosed.endsInQuote_eq_false {characters : List Char} (hOpen : Unclosed characters) :
    Token.endsInQuote ('"' :: characters) = false := by
  rw [Bool.eq_false_iff]
  intro hEnds
  rcases Token.endsInQuote_iff.mp hEnds with ⟨inner, hSplit, even⟩
  have odd := hOpen inner [] (List.cons.inj hSplit).2
  omega

/-! ### Items are inert -/

namespace Text

theorem Denotes.inert {digits : List Char} {number : Nat} (hDenotes : Denotes digits number) :
    Inert digits := by
  apply Inert.of_all
  intro character member
  have digit := List.all_eq_true.mp hDenotes.all_isHexDigit character member
  constructor
  · rintro rfl
    contradiction
  · rintro rfl
    contradiction

/-- Behind a backslash an escape takes one character, whichever it is, and after it only
inert ones. -/
theorem Item.inert {text : List Char} {character : Char} (hItem : Item text character) :
    Inert text := by
  cases hItem with
  | plain hQuote hBackslash => exact .plain hQuote hBackslash .nil
  | named hName => exact .hidden _ .nil
  | two hDigits hAscii => exact .hidden 'x' hDigits.inert
  | four hDigits => exact .hidden 'u' hDigits.inert
  | braced hSome hShort hDigits =>
      have closing : Inert ['}'] := .plain (by decide) (by decide) .nil
      exact .hidden 'u' (.plain (by decide) (by decide) (hDigits.inert.append closing))

theorem inert_of_items {items : List (List Char × Char)}
    (hItems : ∀ item ∈ items, Item item.1 item.2) : Inert (items.flatMap Prod.fst) := by
  induction items with
  | nil => exact .nil
  | cons item items ih =>
      obtain ⟨hItem, others⟩ := List.forall_mem_cons.mp hItems
      exact hItem.inert.append (ih others)

theorem inert_of_decode? {characters decoded : List Char}
    (hDecode : decode? characters = some decoded) :
    ∃ body, characters = '"' :: (body ++ ['"']) ∧ Inert body := by
  obtain ⟨items, hEncloses, _⟩ := decode?_eq_some_iff.mp hDecode
  exact ⟨items.flatMap Prod.fst, hEncloses.split, inert_of_items hEncloses.areItems⟩

end Text
end OperatorCalculator
