import Mathlib.Data.List.DropRight
import OperatorCalculator.Proofs.Text.Slice
import OperatorCalculator.Text.Location

/-
Lines and columns of offsets.

An offset between two characters has the line that is one more than the number of newlines in
front of it, and the column that is the number of characters behind the last of them.  The two
tell where the offset is, so no other offset in the text has both.  Every offset past the last
character has the end of the last line, which a newline at the very end does not follow by
another one.
-/

set_option autoImplicit false

namespace OperatorCalculator
namespace Text

/-! ### Lines -/

theorem splitLines_cons {character : Char} (hCharacter : character ≠ '\n')
    (rest : List Char) :
    splitLines (character :: rest) =
      match splitLines rest with
      | [] => [[character]]
      | line :: lines => (character :: line) :: lines :=
  splitLines.eq_3 character rest hCharacter

theorem isEmpty_splitLines (characters : List Char) :
    (splitLines characters).isEmpty = characters.isEmpty := by
  rw [Bool.eq_iff_iff, List.isEmpty_iff, List.isEmpty_iff]
  constructor
  · intro nothing
    have whole := splitLines_flatten characters
    rw [nothing] at whole
    exact whole.symm
  · rintro rfl
    rfl

theorem splitLines_append_newline {piece : List Char} (hPiece : '\n' ∉ piece)
    (rest : List Char) :
    splitLines (piece ++ '\n' :: rest) = (piece ++ ['\n']) :: splitLines rest := by
  induction piece with
  | nil => rfl
  | cons character piece ih =>
      rw [List.mem_cons, not_or] at hPiece
      rw [List.cons_append, splitLines_cons (Ne.symm hPiece.1), ih hPiece.2, List.cons_append]

theorem splitLines_of_not_mem {piece : List Char} (hPiece : '\n' ∉ piece)
    (hSome : piece ≠ []) : splitLines piece = [piece] := by
  induction piece with
  | nil => contradiction
  | cons character piece ih =>
      rw [List.mem_cons, not_or] at hPiece
      rw [splitLines_cons (Ne.symm hPiece.1)]
      by_cases hNothing : piece = []
      · rw [hNothing]
        rfl
      · rw [ih hPiece.2 hNothing]

theorem count_append_newline {piece : List Char} (hPiece : '\n' ∉ piece) (rest : List Char) :
    (piece ++ '\n' :: rest).count '\n' = rest.count '\n' + 1 := by
  rw [List.count_append, List.count_eq_zero_of_not_mem hPiece, List.count_cons_self]
  omega

theorem byteLength_append_newline (piece rest : List Char) :
    byteLength (piece ++ '\n' :: rest) = byteLength (piece ++ ['\n']) + byteLength rest := by
  rw [← byteLength_append, List.append_assoc, List.singleton_append]

/-- A text is empty, or has one line that does not end in a newline, or a first line that
does. -/
theorem lines_induction {motive : List Char → Prop} (nothing : motive [])
    (last : ∀ piece, '\n' ∉ piece → piece ≠ [] → motive piece)
    (line : ∀ piece rest, '\n' ∉ piece → motive rest → motive (piece ++ '\n' :: rest))
    (characters : List Char) : motive characters := by
  induction hLength : characters.length using Nat.strongRecOn generalizing characters with
  | ind length ih =>
      by_cases hNewline : '\n' ∈ characters
      · rcases List.eq_append_cons_of_mem hNewline with ⟨piece, rest, rfl, hPiece⟩
        have shorter : rest.length < length := by
          rw [← hLength, List.length_append, List.length_cons]
          omega
        exact line piece rest hPiece (ih rest.length shorter rest rfl)
      · by_cases hNothing : characters = []
        · rw [hNothing]
          exact nothing
        · exact last characters hNewline hNothing

/-! ### The line that a place divides -/

def endsLine (character : Char) : Bool :=
  character == '\n' || character == '\r'

/-- The characters behind the last newline. -/
def openLine (characters : List Char) : List Char :=
  characters.rtakeWhile (· != '\n')

/-- The characters in front of the first newline. -/
def restOfLine (characters : List Char) : List Char :=
  characters.takeWhile (· != '\n')

theorem restOfLine_append_newline (front back : List Char) :
    restOfLine (front ++ '\n' :: back) = restOfLine front := by
  unfold restOfLine
  induction front with
  | nil => rfl
  | cons character front ih => rw [List.cons_append, List.takeWhile_cons, List.takeWhile_cons, ih]

theorem openLine_append_newline (front back : List Char) :
    openLine (front ++ '\n' :: back) = openLine back := by
  have turned := restOfLine_append_newline back.reverse front.reverse
  unfold openLine List.rtakeWhile
  rw [List.reverse_append, List.reverse_cons, List.append_assoc, List.singleton_append]
  exact congrArg List.reverse turned

theorem forall_ne_newline {characters : List Char} (hNone : '\n' ∉ characters) :
    ∀ character ∈ characters, (character != '\n') = true := by
  intro character member
  rw [bne_iff_ne]
  intro same
  rw [same] at member
  exact hNone member

theorem openLine_of_not_mem {characters : List Char} (hNone : '\n' ∉ characters) :
    openLine characters = characters :=
  List.rtakeWhile_eq_self_iff.mpr (forall_ne_newline hNone)

theorem restOfLine_of_not_mem {characters : List Char} (hNone : '\n' ∉ characters) :
    restOfLine characters = characters :=
  List.takeWhile_eq_self_iff.mpr (forall_ne_newline hNone)

theorem newline_not_mem_openLine (characters : List Char) : '\n' ∉ openLine characters := by
  intro member
  have other := List.mem_rtakeWhile_imp member
  contradiction

theorem newline_not_mem_restOfLine (characters : List Char) :
    '\n' ∉ restOfLine characters := by
  intro member
  have other := List.mem_takeWhile_imp member
  contradiction

theorem lineText_append_newline (line : List Char) : lineText (line ++ ['\n']) = lineText line :=
  List.rdropWhile_concat_pos _ line '\n' rfl

/-! ### The place of an offset into lines -/

theorem locateFrom?_of_not_mem (number : Nat) {front back : List Char} (hFront : '\n' ∉ front)
    (hBack : back ≠ []) :
    locateFrom? number (splitLines (front ++ back)) (byteLength front) =
      some ⟨number + front.count '\n', lineText (openLine front ++ restOfLine back),
        (openLine front).length⟩ := by
  rw [openLine_of_not_mem hFront, List.count_eq_zero_of_not_mem hFront, Nat.add_zero]
  by_cases hNewline : '\n' ∈ back
  · rcases List.eq_append_cons_of_mem hNewline with ⟨piece, rest, rfl, hPiece⟩
    have onOneLine : '\n' ∉ front ++ piece := by
      rw [List.mem_append, not_or]
      exact ⟨hFront, hPiece⟩
    have inLine : byteLength front < byteLength (front ++ (piece ++ ['\n'])) := by
      have newline := byteLength_pos (List.cons_ne_nil '\n' [])
      rw [byteLength_append, byteLength_append]
      omega
    rw [← List.append_assoc, splitLines_append_newline onOneLine, locateFrom?, List.append_assoc,
      if_pos inLine, cutAt?_append, ← List.append_assoc, lineText_append_newline,
      restOfLine_append_newline, restOfLine_of_not_mem hPiece]
    rfl
  · have onOneLine : '\n' ∉ front ++ back := by
      rw [List.mem_append, not_or]
      exact ⟨hFront, hNewline⟩
    have inLine : byteLength front < byteLength (front ++ back) := by
      have wide := byteLength_pos hBack
      rw [byteLength_append]
      omega
    rw [splitLines_of_not_mem onOneLine (List.append_ne_nil_of_right_ne_nil front hBack),
      locateFrom?, if_pos inLine, cutAt?_append, restOfLine_of_not_mem hNewline]
    rfl

theorem locateFrom?_behind_newline (number : Nat) {piece rest : List Char} (hPiece : '\n' ∉ piece)
    (hRest : rest ≠ []) {offset : Nat} (hOffset : byteLength (piece ++ ['\n']) ≤ offset) :
    locateFrom? number (splitLines (piece ++ '\n' :: rest)) offset =
      locateFrom? (number + 1) (splitLines rest) (offset - byteLength (piece ++ ['\n'])) := by
  have more : (splitLines rest).isEmpty = false := by
    rw [isEmpty_splitLines, List.isEmpty_eq_false_iff]
    exact hRest
  rw [splitLines_append_newline hPiece, locateFrom?, if_neg (Nat.not_lt.mpr hOffset), more,
    if_neg Bool.false_ne_true]

/-- An offset has the line of the character behind it, and the column after those in front. -/
theorem locateFrom?_append (number : Nat) (front : List Char) {back : List Char}
    (hBack : back ≠ []) :
    locateFrom? number (splitLines (front ++ back)) (byteLength front) =
      some ⟨number + front.count '\n', lineText (openLine front ++ restOfLine back),
        (openLine front).length⟩ := by
  induction front using lines_induction generalizing number with
  | nothing => exact locateFrom?_of_not_mem number List.not_mem_nil hBack
  | last piece hPiece _ => exact locateFrom?_of_not_mem number hPiece hBack
  | line piece rest hPiece ih =>
      have behindLine := byteLength_append_newline piece rest
      have more := List.append_ne_nil_of_right_ne_nil rest hBack
      rw [List.append_assoc, List.cons_append,
        locateFrom?_behind_newline number hPiece more (by omega), behindLine,
        Nat.add_sub_cancel_left, ih (number + 1), openLine_append_newline,
        count_append_newline hPiece, Nat.add_assoc, Nat.add_comm 1]

/-- The last line of a text and what comes before it.  A newline at the very end belongs to the
line that it ends. -/
structure EndsWithLine (characters ended last : List Char) : Prop where
  split : characters = ended ++ last
  begins : ended = [] ∨ ended.getLast? = some '\n'
  newline : '\n' ∉ last.dropLast
  isSome : last = [] → characters = []

/-- An offset past the last character has the end of the last line. -/
theorem exists_locateFrom?_eq_end (number : Nat) (characters : List Char) :
    ∃ ended last, EndsWithLine characters ended last ∧ ∀ offset, byteLength characters ≤ offset →
      locateFrom? number (splitLines characters) offset =
        some ⟨number + ended.count '\n', lineText last, (lineText last).length⟩ := by
  induction characters using lines_induction generalizing number with
  | nothing => exact ⟨[], [], ⟨rfl, Or.inl rfl, List.not_mem_nil, fun _ => rfl⟩, fun _ _ => rfl⟩
  | last piece hPiece hSome =>
      refine ⟨[], piece, ⟨rfl, Or.inl rfl, ?_, id⟩, ?_⟩
      · exact fun member => hPiece (List.dropLast_subset piece member)
      · intro offset past
        rw [splitLines_of_not_mem hPiece hSome, locateFrom?, if_neg (Nat.not_lt.mpr past)]
        rfl
  | line piece rest hPiece ih =>
      rw [byteLength_append_newline]
      by_cases hNothing : rest = []
      · subst hNothing
        refine ⟨[], piece ++ ['\n'], ⟨rfl, Or.inl rfl, ?_, id⟩, ?_⟩
        · rw [List.dropLast_concat]
          exact hPiece
        · intro offset past
          have notInLine : ¬offset < byteLength (piece ++ ['\n']) := by
            omega
          rw [splitLines_append_newline hPiece, locateFrom?, if_neg notInLine]
          rfl
      · rcases ih (number + 1) with ⟨ended, last, hEnds, hPast⟩
        refine ⟨piece ++ '\n' :: ended, last, ⟨?_, Or.inr ?_, hEnds.newline, ?_⟩, ?_⟩
        · rw [hEnds.split, List.append_assoc, List.cons_append]
        · rw [List.getLast?_append, List.getLast?_cons]
          rcases hEnds.begins with rfl | newline
          · rfl
          · rw [newline]
            rfl
        · intro nothing
          exact absurd (hEnds.isSome nothing) hNothing
        · intro offset past
          have behind : byteLength rest ≤ offset - byteLength (piece ++ ['\n']) := by
            omega
          rw [locateFrom?_behind_newline number hPiece hNothing (by omega), hPast _ behind,
            count_append_newline hPiece, Nat.add_assoc, Nat.add_comm 1]

theorem isBoundary_of_locateFrom? {number : Nat} {lines : List (List Char)} {offset : Nat}
    {location : Location} (hLocation : locateFrom? number lines offset = some location) :
    byteLength lines.flatten ≤ offset ∨ IsBoundary lines.flatten offset := by
  induction lines generalizing number offset with
  | nil => exact Or.inl (Nat.zero_le offset)
  | cons line lines ih =>
      rw [List.flatten_cons]
      rw [locateFrom?] at hLocation
      by_cases inLine : offset < byteLength line
      · rw [if_pos inLine] at hLocation
        rcases Option.map_eq_some_iff.mp hLocation with ⟨⟨front, back⟩, hCut, _⟩
        rcases cutAt?_eq_some hCut with ⟨rfl, hFront⟩
        exact Or.inr ⟨front, back ++ lines.flatten, List.append_assoc front back _, hFront⟩
      · rw [if_neg inLine] at hLocation
        cases lines with
        | nil =>
            rw [List.flatten_nil, List.append_nil]
            exact Or.inl (Nat.le_of_not_lt inLine)
        | cons next lines =>
            rw [byteLength_append]
            rcases ih hLocation with past | ⟨front, back, whole, hFront⟩
            · left
              omega
            · refine Or.inr ⟨line ++ front, back, ?_, ?_⟩
              · rw [whole, List.append_assoc]
              · rw [byteLength_append, hFront]
                omega

/-! ### The place of an offset in a text -/

theorem locate?_append (front : List Char) {back : List Char} (hBack : back ≠ []) :
    locate? (front ++ back) (byteLength front) =
      some ⟨1 + front.count '\n', lineText (openLine front ++ restOfLine back),
        (openLine front).length⟩ :=
  locateFrom?_append 1 front hBack

theorem ne_nil_of_lt_byteLength {front back : List Char}
    (inside : byteLength front < byteLength (front ++ back)) : back ≠ [] := by
  rintro rfl
  rw [List.append_nil] at inside
  omega

theorem exists_locate? {characters : List Char} {offset : Nat}
    (hBoundary : IsBoundary characters offset) :
    ∃ location, locate? characters offset = some location := by
  rcases hBoundary with ⟨front, back, rfl, rfl⟩
  by_cases inside : byteLength front < byteLength (front ++ back)
  · exact ⟨_, locate?_append front (ne_nil_of_lt_byteLength inside)⟩
  · rcases exists_locateFrom?_eq_end 1 (front ++ back) with ⟨ended, last, _, hPast⟩
    exact ⟨_, hPast _ (Nat.le_of_not_lt inside)⟩

theorem locate?_eq_none_iff {characters : List Char} {offset : Nat} :
    locate? characters offset = none ↔
      offset < byteLength characters ∧ ¬IsBoundary characters offset := by
  constructor
  · intro nowhere
    constructor
    · apply Nat.lt_of_not_le
      intro past
      rcases exists_locateFrom?_eq_end 1 characters with ⟨ended, last, _, hPast⟩
      have somewhere := (hPast offset past).symm.trans nowhere
      contradiction
    · intro hBoundary
      rcases exists_locate? hBoundary with ⟨location, hLocation⟩
      rw [hLocation] at nowhere
      contradiction
  · rintro ⟨inside, noBoundary⟩
    cases hLocation : locate? characters offset with
    | none => rfl
    | some location =>
        have found := isBoundary_of_locateFrom? hLocation
        rw [splitLines_flatten] at found
        rcases found with past | hBoundary
        · omega
        · contradiction

/-- The characters in front of a column of a line: the lines before, and so many of the line. -/
def frontOf (characters : List Char) (line column : Nat) : List Char :=
  ((splitLines characters).take (line - 1)).flatten ++
    ((splitLines characters).drop (line - 1)).flatten.take column

theorem frontOf_append (front back : List Char) :
    frontOf (front ++ back) (1 + front.count '\n') (openLine front).length = front := by
  have inLine : ∀ piece, '\n' ∉ piece →
      frontOf (piece ++ back) (1 + piece.count '\n') (openLine piece).length = piece := by
    intro piece hPiece
    rw [openLine_of_not_mem hPiece, List.count_eq_zero_of_not_mem hPiece]
    unfold frontOf
    rw [Nat.add_zero, Nat.sub_self, List.take_zero, List.drop_zero, List.flatten_nil,
      List.nil_append, splitLines_flatten, List.take_left]
  induction front using lines_induction with
  | nothing => exact inLine [] List.not_mem_nil
  | last piece hPiece _ => exact inLine piece hPiece
  | line piece rest hPiece ih =>
      unfold frontOf at ih ⊢
      rw [Nat.add_sub_cancel_left] at ih ⊢
      rw [List.append_assoc, List.cons_append, splitLines_append_newline hPiece,
        count_append_newline hPiece, openLine_append_newline, List.take_succ_cons,
        List.drop_succ_cons, List.flatten_cons, List.append_assoc, ih, List.append_assoc,
        List.singleton_append]

/-- What a location tells of a place between two parts of a text. -/
structure Location.LiesBetween (location : Location) (front back : List Char) : Prop where
  line : location.line = 1 + front.count '\n'
  column : location.column = (front.rtakeWhile (· != '\n')).length
  text : location.text =
    (front.rtakeWhile (· != '\n') ++ back.takeWhile (· != '\n')).rdropWhile endsLine

theorem exists_liesBetween {characters : List Char} {offset : Nat}
    (inside : offset < byteLength characters) (hBoundary : IsBoundary characters offset) :
    ∃ front back location, characters = front ++ back ∧ byteLength front = offset ∧
      locate? characters offset = some location ∧ location.LiesBetween front back ∧
      frontOf characters location.line location.column = front := by
  rcases hBoundary with ⟨front, back, rfl, rfl⟩
  have located := locate?_append front (ne_nil_of_lt_byteLength inside)
  exact ⟨front, back, _, rfl, rfl, located, ⟨rfl, rfl, rfl⟩, frontOf_append front back⟩

end Text

open Text (IsBoundary EndsWithLine endsLine frontOf locate?)

/-- Every offset between two characters has the line and the column of the character behind it,
which tell the characters in front of it and so differ from those of any other offset.  Every
offset past the last character has the end of the last line.  Only an offset inside a character
has no place. -/
theorem offsets_have_lines_and_columns (source : String) :
    (∀ offset, offset < source.utf8ByteSize → IsBoundary source.toList offset →
      ∃ front back location, source.toList = front ++ back ∧ Text.byteLength front = offset ∧
        locate? source.toList offset = some location ∧ location.LiesBetween front back ∧
        frontOf source.toList location.line location.column = front) ∧
    (∀ offset other location otherLocation,
      offset < source.utf8ByteSize → other < source.utf8ByteSize →
      locate? source.toList offset = some location →
      locate? source.toList other = some otherLocation →
      location.line = otherLocation.line → location.column = otherLocation.column →
      offset = other) ∧
    (∃ ended last, EndsWithLine source.toList ended last ∧
      ∀ offset, source.utf8ByteSize ≤ offset →
        locate? source.toList offset =
          some ⟨1 + ended.count '\n', last.rdropWhile endsLine,
            (last.rdropWhile endsLine).length⟩) ∧
    ∀ offset, locate? source.toList offset = none ↔
      offset < source.utf8ByteSize ∧ ¬IsBoundary source.toList offset := by
  rw [← Text.byteLength_toList]
  have boundary : ∀ {offset location}, offset < Text.byteLength source.toList →
      locate? source.toList offset = some location → IsBoundary source.toList offset := by
    intro offset location inside hLocation
    by_contra noBoundary
    rw [Text.locate?_eq_none_iff.mpr ⟨inside, noBoundary⟩] at hLocation
    contradiction
  refine ⟨fun offset => Text.exists_liesBetween, ?_, Text.exists_locateFrom?_eq_end 1 _,
    fun offset => Text.locate?_eq_none_iff⟩
  intro offset other location otherLocation inside otherInside hLocation hOther sameLine sameColumn
  rcases Text.exists_liesBetween inside (boundary inside hLocation) with
    ⟨front, back, found, _, hOffset, hFound, _, hFront⟩
  rcases Text.exists_liesBetween otherInside (boundary otherInside hOther) with
    ⟨otherFront, otherBack, otherFound, _, hOtherOffset, hOtherFound, _, hOtherFront⟩
  obtain rfl := Option.some.inj (hFound.symm.trans hLocation)
  obtain rfl := Option.some.inj (hOtherFound.symm.trans hOther)
  rw [← hOffset, ← hOtherOffset, ← hFront, ← hOtherFront, sameLine, sameColumn]

/-- The second line of three, in front of a bare newline. -/
example : locate? "é\r\n→x\r\n\n".toList 7 = some ⟨2, ['→', 'x'], 1⟩ := by
  decide +kernel

end OperatorCalculator
