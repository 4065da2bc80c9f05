/-
Byte offsets into a text.

A position counts the bytes of the UTF-8 encoding in front of it, so only some
numbers fall between two characters.  Cutting a text at any other number has no
answer, and neither has a slice whose ends are out of order or out of range.
-/

set_option autoImplicit false

namespace OperatorCalculator
namespace Text

def byteLength (characters : List Char) : Nat :=
  characters.foldr (fun character length => character.utf8Size + length) 0

@[simp] theorem byteLength_nil : byteLength [] = 0 := rfl

@[simp] theorem byteLength_cons (character : Char) (rest : List Char) :
    byteLength (character :: rest) = character.utf8Size + byteLength rest := rfl

@[simp] theorem byteLength_append (front back : List Char) :
    byteLength (front ++ back) = byteLength front + byteLength back := by
  induction front with
  | nil => rw [List.nil_append, byteLength_nil, Nat.zero_add]
  | cons character front ih =>
      rw [List.cons_append, byteLength_cons, byteLength_cons, ih, Nat.add_assoc]

/-- The characters before and from a byte offset, if a character ends there. -/
def cutAt? : List Char → Nat → Option (List Char × List Char)
  | characters, 0 => some ([], characters)
  | [], _ + 1 => none
  | character :: rest, offset + 1 =>
      if character.utf8Size ≤ offset + 1 then
        (cutAt? rest (offset + 1 - character.utf8Size)).map fun (front, back) =>
          (character :: front, back)
      else
        none

/-- The characters between two byte offsets, if both are character boundaries of
the text and in order. -/
def slice? (characters : List Char) (start stop : Nat) : Option (List Char) :=
  if start ≤ stop then do
    let (_, fromStart) ← cutAt? characters start
    let (between, _) ← cutAt? fromStart (stop - start)
    return between
  else
    none

theorem cutAt?_eq_some {characters front back : List Char} {offset : Nat}
    (hCut : cutAt? characters offset = some (front, back)) :
    characters = front ++ back ∧ byteLength front = offset := by
  fun_induction cutAt? characters offset generalizing front back with
  | case1 characters =>
      obtain ⟨rfl, rfl⟩ : [] = front ∧ characters = back := by simpa using hCut
      simp
  | case2 => simp at hCut
  | case3 character rest offset fits ih =>
      simp only [Option.map_eq_some_iff, Prod.exists, Prod.mk.injEq] at hCut
      obtain ⟨restFront, restBack, hRest, rfl, rfl⟩ := hCut
      obtain ⟨hSplit, hLength⟩ := ih hRest
      refine ⟨by rw [hSplit]; rfl, ?_⟩
      rw [byteLength_cons, hLength]
      omega
  | case4 => simp at hCut

theorem cutAt?_append (front back : List Char) :
    cutAt? (front ++ back) (byteLength front) = some (front, back) := by
  induction front with
  | nil => simp [cutAt?]
  | cons character front ih =>
      have wide : 0 < character.utf8Size := character.utf8Size_pos
      obtain ⟨before, hBefore⟩ : ∃ before, byteLength (character :: front) = before + 1 :=
        ⟨byteLength (character :: front) - 1, by rw [byteLength_cons]; omega⟩
      have remaining : before + 1 - character.utf8Size = byteLength front := by
        rw [← hBefore, byteLength_cons]; omega
      have fits : character.utf8Size ≤ before + 1 := by
        rw [← hBefore, byteLength_cons]; omega
      rw [List.cons_append, hBefore, cutAt?, if_pos fits, remaining, ih]
      rfl

end Text
end OperatorCalculator
