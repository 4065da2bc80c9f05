/-
White space.

A character is blank when it has the Unicode property White_Space.  Trimming a
text removes the blank characters at both ends and nothing between them.
-/

set_option autoImplicit false

namespace OperatorCalculator
namespace Text

/-- The ranges of the Unicode property White_Space, first and last code point. -/
def blankRanges : List (Nat × Nat) :=
  [(0x9, 0xd), (0x20, 0x20), (0x85, 0x85), (0xa0, 0xa0), (0x1680, 0x1680),
   (0x2000, 0x200a), (0x2028, 0x2029), (0x202f, 0x202f), (0x205f, 0x205f),
   (0x3000, 0x3000)]

def isBlank (character : Char) : Bool :=
  blankRanges.any fun (first, last) =>
    first ≤ character.toNat && character.toNat ≤ last

/-- The characters up to the last one that fails the test. -/
def dropEndWhile (drops : Char → Bool) (characters : List Char) : List Char :=
  (characters.reverse.dropWhile drops).reverse

def trim (characters : List Char) : List Char :=
  dropEndWhile isBlank (characters.dropWhile isBlank)

def isAllBlank (characters : List Char) : Bool :=
  characters.all isBlank

theorem dropEndWhile_append (drops : Char → Bool) (characters : List Char) :
    ∃ dropped, characters = dropEndWhile drops characters ++ dropped ∧
      ∀ character ∈ dropped, drops character = true := by
  refine ⟨(characters.reverse.takeWhile drops).reverse, ?_, ?_⟩
  · rw [dropEndWhile, ← List.reverse_append, List.takeWhile_append_dropWhile,
      List.reverse_reverse]
  · intro character member
    rw [List.mem_reverse] at member
    exact List.all_eq_true.mp List.all_takeWhile character member

end Text
end OperatorCalculator
