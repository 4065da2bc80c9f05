import OperatorCalculator.Text.Offset

/-
Slices of a text.

A slice between two byte offsets has an answer exactly if the offsets are in order and each
lies between two characters, and then it is what stands between them.
-/

set_option autoImplicit false

namespace OperatorCalculator
namespace Text

/-! ### Characters and their bytes -/

theorem byteLength_toList (text : String) : byteLength text.toList = text.utf8ByteSize := by
  obtain ⟨characters, rfl⟩ : ∃ characters, text = String.ofList characters :=
    ⟨text.toList, by simp⟩
  rw [String.toList_ofList]
  induction characters with
  | nil => rfl
  | cons character rest ih =>
      rw [byteLength_cons, ih, String.ofList_cons, String.utf8ByteSize_append,
        String.utf8ByteSize_singleton]

theorem byteLength_pos {characters : List Char} (hCharacters : characters ≠ []) :
    0 < byteLength characters := by
  cases characters with
  | nil => contradiction
  | cons character rest =>
      have wide := character.utf8Size_pos
      rw [byteLength_cons]
      omega

theorem length_le_byteLength (characters : List Char) :
    characters.length ≤ byteLength characters := by
  induction characters with
  | nil => exact Nat.le_refl 0
  | cons character rest ih =>
      have wide := character.utf8Size_pos
      rw [List.length_cons, byteLength_cons]
      omega

theorem length_toList_le (source : String) : source.toList.length ≤ source.utf8ByteSize := by
  rw [← byteLength_toList]
  exact length_le_byteLength source.toList

theorem prefix_of_byteLength_le {characters front other : List Char}
    (hFront : front <+: characters) (hOther : other <+: characters)
    (hShorter : byteLength front ≤ byteLength other) : front <+: other := by
  rcases List.prefix_or_prefix_of_prefix hFront hOther with shorter | ⟨between, rfl⟩
  · exact shorter
  · cases between with
    | nil => exact ⟨[], by rw [List.append_nil, List.append_nil]⟩
    | cons character between =>
        have wide := character.utf8Size_pos
        rw [byteLength_append, byteLength_cons] at hShorter
        omega

/-- A text is divided at an offset in one way. -/
theorem append_inj_of_byteLength_eq {front back other otherBack : List Char}
    (same : front ++ back = other ++ otherBack) (hLength : byteLength front = byteLength other) :
    front = other ∧ back = otherBack := by
  have here := cutAt?_append front back
  rw [same, hLength, cutAt?_append, Option.some.injEq, Prod.mk.injEq] at here
  exact ⟨here.1.symm, here.2.symm⟩

/-! ### What a slice takes -/

theorem slice?_append (front between back : List Char) :
    slice? (front ++ (between ++ back)) (byteLength front)
      (byteLength front + byteLength between) = some between := by
  rw [slice?, if_pos (Nat.le_add_right _ _), cutAt?_append, Nat.add_sub_cancel_left]
  show (cutAt? (between ++ back) (byteLength between)).bind (fun cut => some cut.1) = _
  rw [cutAt?_append]
  rfl

theorem slice?_eq_some_iff {characters between : List Char} {start stop : Nat} :
    slice? characters start stop = some between ↔
      ∃ front back, characters = front ++ (between ++ back) ∧ byteLength front = start ∧
        byteLength front + byteLength between = stop := by
  constructor
  · intro hSlice
    rw [slice?] at hSlice
    split at hSlice
    · rename_i inOrder
      cases hStart : cutAt? characters start with
      | none => simp [hStart] at hSlice
      | some cut =>
          cases cut with
          | mk front fromStart =>
              cases hStop : cutAt? fromStart (stop - start) with
              | none => simp [hStart, hStop] at hSlice
              | some inner =>
                  cases inner with
                  | mk middle back =>
                      simp [hStart, hStop] at hSlice
                      subst hSlice
                      have atStart := cutAt?_eq_some hStart
                      have atStop := cutAt?_eq_some hStop
                      refine ⟨front, back, ?_, atStart.2, ?_⟩
                      · rw [atStart.1, atStop.1]
                      · rw [atStart.2, atStop.2]
                        omega
    · contradiction
  · rintro ⟨front, back, rfl, rfl, rfl⟩
    exact slice?_append front between back

theorem slice?_trans {characters first second : List Char} {start middle stop : Nat}
    (hFirst : slice? characters start middle = some first)
    (hSecond : slice? characters middle stop = some second) :
    slice? characters start stop = some (first ++ second) := by
  rcases slice?_eq_some_iff.mp hFirst with ⟨front, behind, hBehind, hStart, hMiddle⟩
  rcases slice?_eq_some_iff.mp hSecond with ⟨before, back, hBack, hBefore, hStop⟩
  rw [← List.append_assoc] at hBehind
  rw [← byteLength_append] at hMiddle
  have behindEq := (append_inj_of_byteLength_eq (hBehind.symm.trans hBack)
    (hMiddle.trans hBefore.symm)).2
  rw [slice?_eq_some_iff]
  refine ⟨front, back, ?_, hStart, ?_⟩
  · rw [hBehind, behindEq, List.append_assoc, List.append_assoc]
  · rw [byteLength_append] at hMiddle ⊢
    omega

/-- The offset lies between two characters, or at an end. -/
def IsBoundary (characters : List Char) (offset : Nat) : Prop :=
  ∃ front back, characters = front ++ back ∧ byteLength front = offset

/-- A slice has an answer exactly if its ends are in order and between two characters. -/
theorem slice?_ne_none_iff {characters : List Char} {start stop : Nat} :
    slice? characters start stop ≠ none ↔
      start ≤ stop ∧ IsBoundary characters start ∧ IsBoundary characters stop := by
  rw [Option.ne_none_iff_exists']
  constructor
  · rintro ⟨between, hSlice⟩
    rcases slice?_eq_some_iff.mp hSlice with ⟨front, back, hSplit, rfl, rfl⟩
    refine ⟨Nat.le_add_right _ _, ⟨front, between ++ back, hSplit, rfl⟩,
      ⟨front ++ between, back, ?_, byteLength_append front between⟩⟩
    rw [hSplit, List.append_assoc]
  · rintro ⟨inOrder, ⟨front, back, hSplit, rfl⟩, ⟨other, otherBack, hOther, rfl⟩⟩
    rcases prefix_of_byteLength_le ⟨back, hSplit.symm⟩ ⟨otherBack, hOther.symm⟩ inOrder with
      ⟨between, rfl⟩
    have found := slice?_append front between otherBack
    rw [← List.append_assoc, ← hOther, ← byteLength_append] at found
    exact ⟨between, found⟩

end Text
end OperatorCalculator
