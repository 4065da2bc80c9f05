import OperatorCalculator.PrecedenceTable.Entry
import OperatorCalculator.Proofs.Text.Decimal

/-
What is written in an entry.

A rank is a numeral between blanks, and the last equals sign divides an entry, since a rank that
can be read holds none.  So an entry that is put together from symbols, an equals sign and a rank
reads back as just these, even if there are equals signs among the symbols, and nothing else
can be read.
-/

set_option autoImplicit false

namespace OperatorCalculator

/-! ### Ranks -/

namespace Text

theorem isBlank_eq_false_of_isDigit {character : Char} (hDigit : character.isDigit = true) :
    isBlank character = false := by
  have apart := forall_of_codes
    (fun character => character.isDigit = true → isBlank character = false) (by decide)
    (toNat_lt_of_isDigit hDigit)
  exact apart hDigit

theorem dropWhile_isBlank_append {blank ink : List Char}
    (hBlank : ∀ character ∈ blank, isBlank character = true) (hSome : ink ≠ [])
    (hInk : ∀ character ∈ ink, isBlank character = false) (behind : List Char) :
    (blank ++ (ink ++ behind)).dropWhile isBlank = ink ++ behind := by
  rw [List.dropWhile_append_of_pos hBlank]
  cases ink with
  | nil => contradiction
  | cons first rest =>
      rw [List.cons_append, List.dropWhile_cons, hInk first List.mem_cons_self,
        if_neg Bool.false_ne_true]

theorem trim_around {before ink behind : List Char}
    (hBefore : ∀ character ∈ before, isBlank character = true) (hSome : ink ≠ [])
    (hInk : ∀ character ∈ ink, isBlank character = false)
    (hBehind : ∀ character ∈ behind, isBlank character = true) :
    trim (before ++ (ink ++ behind)) = ink := by
  have backwards : (behind.reverse ++ ink.reverse).dropWhile isBlank = ink.reverse := by
    have blank : ∀ character ∈ behind.reverse, isBlank character = true :=
      fun character member => hBehind character (List.mem_reverse.mp member)
    have inked : ∀ character ∈ ink.reverse, isBlank character = false :=
      fun character member => hInk character (List.mem_reverse.mp member)
    have dropped := dropWhile_isBlank_append blank (mt List.reverse_eq_nil_iff.mp hSome) inked []
    rwa [List.append_nil] at dropped
  rw [trim, dropWhile_isBlank_append hBefore hSome hInk, dropEndWhile, List.reverse_append,
    backwards, List.reverse_reverse]

theorem exists_around_trim (characters : List Char) :
    ∃ before behind : List Char, (∀ character ∈ before, isBlank character = true) ∧
      (∀ character ∈ behind, isBlank character = true) ∧
      characters = before ++ (trim characters ++ behind) := by
  rcases dropEndWhile_append isBlank (characters.dropWhile isBlank) with ⟨behind, split, blank⟩
  refine ⟨characters.takeWhile isBlank, behind, ?_, blank, ?_⟩
  · exact List.all_eq_true.mp List.all_takeWhile
  · rw [trim, ← split, List.takeWhile_append_dropWhile]

theorem Unsigned.isBlank_eq_false {characters : List Char} {number : Nat}
    (hNumeral : Unsigned characters number) :
    ∀ character ∈ characters, isBlank character = false := by
  cases hNumeral with
  | bare hDigits => exact fun digit member => isBlank_eq_false_of_isDigit (hDigits.isDigit member)
  | plus hDigits =>
      rintro character (_ | ⟨_, member⟩)
      · rfl
      · exact isBlank_eq_false_of_isDigit (hDigits.isDigit member)

theorem Unsigned.ne_nil {characters : List Char} {number : Nat}
    (hNumeral : Unsigned characters number) : characters ≠ [] := by
  cases hNumeral with
  | bare hDigits => exact hDigits.nonempty
  | plus hDigits => exact List.cons_ne_nil _ _

end Text

namespace PrecedenceTable

/-- A rank as it is written: a numeral, with a plus in front or none, between blanks. -/
def WritesRank (characters : List Char) (rank : Nat) : Prop :=
  ∃ before numeral behind : List Char, characters = before ++ (numeral ++ behind) ∧
    (∀ character ∈ before, Text.isBlank character = true) ∧
    (∀ character ∈ behind, Text.isBlank character = true) ∧ Text.Unsigned numeral rank

theorem levelOfText?_eq_some_iff {characters : List Char} {level : Level} :
    levelOfText? characters = some level ↔ WritesRank characters level.rank := by
  rw [levelOfText?, Option.bind_eq_some_iff]
  constructor
  · rintro ⟨rank, hRead, hLevel⟩
    rw [Level.ofRank?_eq_some_iff] at hLevel
    rw [Text.readUnsigned?_eq_some_iff, ← hLevel] at hRead
    rcases Text.exists_around_trim characters with ⟨before, behind, hBefore, hBehind, split⟩
    exact ⟨before, Text.trim characters, behind, split, hBefore, hBehind, hRead⟩
  · rintro ⟨before, numeral, behind, rfl, hBefore, hBehind, hNumeral⟩
    refine ⟨level.rank, ?_, Level.ofRank?_eq_some_iff.mpr rfl⟩
    rw [Text.trim_around hBefore hNumeral.ne_nil hNumeral.isBlank_eq_false hBehind]
    exact Text.readUnsigned?_eq_some_iff.mpr hNumeral

theorem levelOfText?_repr (level : Level) :
    levelOfText? level.rank.repr.toList = some level := by
  apply levelOfText?_eq_some_iff.mpr
  exact ⟨[], level.rank.repr.toList, [], by simp, by simp, by simp,
    .bare (Text.decimal_repr level.rank)⟩

/-! ### The last equals sign -/

theorem splitAtLastEquals?_eq_none_iff {characters : List Char} :
    splitAtLastEquals? characters = none ↔ '=' ∉ characters := by
  induction characters with
  | nil => simp [splitAtLastEquals?]
  | cons first rest ih =>
      rw [splitAtLastEquals?, List.mem_cons, not_or, ← ih]
      cases splitAtLastEquals? rest with
      | some parts => simp
      | none => simp [eq_comm]

theorem splitAtLastEquals?_eq_some_iff {characters front back : List Char} :
    splitAtLastEquals? characters = some (front, back) ↔
      characters = front ++ '=' :: back ∧ '=' ∉ back := by
  constructor
  · intro hSplit
    induction characters generalizing front with
    | nil => contradiction
    | cons first rest ih =>
        rw [splitAtLastEquals?] at hSplit
        cases hRest : splitAtLastEquals? rest with
        | some parts =>
            rw [hRest] at hSplit
            cases hSplit
            obtain ⟨hFront, hBack⟩ := ih hRest
            exact ⟨congrArg (first :: ·) hFront, hBack⟩
        | none =>
            rw [hRest] at hSplit
            by_cases hFirst : first = '='
            · cases (if_pos hFirst).symm.trans hSplit
              exact ⟨congrArg (· :: _) hFirst, splitAtLastEquals?_eq_none_iff.mp hRest⟩
            · cases (if_neg hFirst).symm.trans hSplit
  · rintro ⟨rfl, hBack⟩
    induction front with
    | nil =>
        rw [List.nil_append, splitAtLastEquals?, splitAtLastEquals?_eq_none_iff.mpr hBack]
        exact if_pos rfl
    | cons first front ih => rw [List.cons_append, splitAtLastEquals?, ih]

/-! ### Entries -/

/-- An entry is an operator, an equals sign and the text of a rank, in which there is none. -/
theorem parseEntry_eq_ok_iff {entry operator : String} {level : Level} :
    parseEntry entry = .ok (operator, level) ↔
      isOperatorText operator.toList = true ∧
        ∃ rank, entry.toList = operator.toList ++ '=' :: rank ∧ '=' ∉ rank ∧
          levelOfText? rank = some level := by
  have read : parseEntry entry = .ok (operator, level) ↔
      readEntry? entry = some (operator, level) := by
    rw [parseEntry]
    cases readEntry? entry with
    | none => simp
    | some parsed => simp
  rw [read, readEntry?]
  constructor
  · intro hRead
    obtain ⟨⟨front, rank⟩, hSplit, hRead⟩ := Option.bind_eq_some_iff.mp hRead
    obtain ⟨found, hLevel, hRead⟩ := Option.bind_eq_some_iff.mp hRead
    by_cases hText : isOperatorText front = true
    · cases (if_pos hText).symm.trans hRead
      obtain ⟨hEntry, hRank⟩ := splitAtLastEquals?_eq_some_iff.mp hSplit
      rw [String.toList_ofList]
      exact ⟨hText, rank, hEntry, hRank, hLevel⟩
    · cases (if_neg hText).symm.trans hRead
  · rintro ⟨hText, rank, hEntry, hRank, hLevel⟩
    rw [splitAtLastEquals?_eq_some_iff.mpr ⟨hEntry, hRank⟩]
    simp only [Option.bind_eq_bind, Option.bind_some, hLevel, hText, if_true,
      String.ofList_toList]

theorem parseEntry_append_toString {operator : String}
    (hText : isOperatorText operator.toList = true) (level : Level) :
    parseEntry (operator ++ "=" ++ toString level.rank) = .ok (operator, level) := by
  apply parseEntry_eq_ok_iff.mpr
  refine ⟨hText, level.rank.repr.toList, ?_, ?_, levelOfText?_repr level⟩
  · rw [String.toList_append, String.toList_append, List.append_assoc]
    rfl
  · intro member
    have digit := Text.isDigit_of_mem_repr member
    contradiction

/-- The text can be an operator between any two words. -/
def IsOperator (operator : String) : Prop :=
  operator ≠ "" ∧ ∀ character ∈ operator.toList,
    isWordCharacter character = false ∧ character ≠ '"' ∧ 0x20 < character.toNat

theorem isOperatorText_toList_iff {operator : String} :
    isOperatorText operator.toList = true ↔ IsOperator operator := by
  rw [isOperatorText_iff, List.all_eq_true, IsOperator, ne_eq, ne_eq, String.toList_eq_nil_iff]
  apply and_congr_right
  intro _
  apply forall₂_congr
  intro character _
  simp only [isSymbol, isGap, Bool.and_eq_true, Bool.not_eq_true', decide_eq_false_iff_not,
    Nat.not_le, bne_iff_ne, ne_eq]
  constructor
  · intro symbol
    rcases symbol with ⟨⟨gap, word⟩, quote⟩
    exact ⟨word, quote, gap⟩
  · intro allowed
    rcases allowed with ⟨word, quote, gap⟩
    exact ⟨⟨gap, word⟩, quote⟩

/-- An entry as it is written: an operator, the last equals sign, and a rank that a level has. -/
structure WritesEntry (entry operator : String) (rank : Nat) : Prop where
  isOperator : IsOperator operator
  split : ∃ written, entry = operator ++ "=" ++ written ∧ '=' ∉ written.toList ∧
    WritesRank written.toList rank
  lowest : 1 ≤ rank
  highest : rank ≤ 4294967295

theorem parseEntry_cases (entry : String) :
    (∃ operator level, parseEntry entry = .ok (operator, level)) ∨
      parseEntry entry = .error ⟨.invalidPrecedence entry, 0⟩ := by
  rw [parseEntry]
  cases readEntry? entry with
  | none => exact .inr rfl
  | some parsed => exact .inl ⟨parsed.1, parsed.2, rfl⟩

theorem parseEntry_eq_ok_iff_writesEntry {entry operator : String} {level : Level} :
    parseEntry entry = .ok (operator, level) ↔ WritesEntry entry operator level.rank := by
  rw [parseEntry_eq_ok_iff, isOperatorText_toList_iff]
  constructor
  · rintro ⟨isOperator, written, split, hEquals, hLevel⟩
    refine ⟨isOperator, ⟨String.ofList written, ?_, ?_, ?_⟩, level.positive, level.bounded⟩
    · apply String.toList_inj.mp
      rw [split, String.toList_append, String.toList_append, List.append_assoc]
      simp only [String.toList_ofList]
      rfl
    · rwa [String.toList_ofList]
    · rw [String.toList_ofList]
      exact levelOfText?_eq_some_iff.mp hLevel
  · rintro ⟨isOperator, ⟨written, rfl, hEquals, hRank⟩, _, _⟩
    refine ⟨isOperator, written.toList, ?_, hEquals, levelOfText?_eq_some_iff.mpr hRank⟩
    rw [String.toList_append, String.toList_append, List.append_assoc]
    rfl

end PrecedenceTable

open PrecedenceTable in
/-- An entry is read as the operator and the rank that it writes, which are the only ones, and the
fault of any other entry is the entry itself.  So a written operator and a written rank with an
equals sign between them are read back, whatever equals signs the operator has. -/
theorem entries_are_read_as_written :
    (∀ (entry operator : String) (rank : Nat),
      (∃ level, parseEntry entry = .ok (operator, level) ∧ level.rank = rank) ↔
        WritesEntry entry operator rank) ∧
    (∀ entry : String, parseEntry entry = .error ⟨.invalidPrecedence entry, 0⟩ ↔
      ∀ operator rank, ¬WritesEntry entry operator rank) ∧
    ∀ (operator : String) (rank : Nat), IsOperator operator → 1 ≤ rank → rank ≤ 4294967295 →
      ∃ level, parseEntry (operator ++ "=" ++ toString rank) = .ok (operator, level) ∧
        level.rank = rank := by
  have read : ∀ (entry operator : String) (rank : Nat),
      (∃ level, parseEntry entry = .ok (operator, level) ∧ level.rank = rank) ↔
        WritesEntry entry operator rank := by
    intro entry operator rank
    constructor
    · rintro ⟨level, hEntry, rfl⟩
      exact parseEntry_eq_ok_iff_writesEntry.mp hEntry
    · intro written
      let level : Level := ⟨rank, written.lowest, written.highest⟩
      exact ⟨level, parseEntry_eq_ok_iff_writesEntry.mpr written, rfl⟩
  refine ⟨read, ?_, ?_⟩
  · intro entry
    constructor
    · intro hError operator rank written
      rcases (read entry operator rank).mpr written with ⟨level, hEntry, _⟩
      rw [hError] at hEntry
      contradiction
    · intro unwritten
      rcases parseEntry_cases entry with ⟨operator, level, hEntry⟩ | hError
      · exact absurd (parseEntry_eq_ok_iff_writesEntry.mp hEntry) (unwritten operator level.rank)
      · exact hError
  · intro operator rank isOperator lowest highest
    let level : Level := ⟨rank, lowest, highest⟩
    exact ⟨level, parseEntry_append_toString (isOperatorText_toList_iff.mpr isOperator) level, rfl⟩

/-- An operator that ends in equals signs, with a rank between blanks that has a plus and zeros in
front; the same operator with the highest rank; and a rank with a minus. -/
theorem entries_are_read_as_written_around_equals_signs :
    (∃ level, PrecedenceTable.parseEntry "<===\u3000+007 " = .ok ("<==", level) ∧
      level.rank = 7) ∧
    (PrecedenceTable.IsOperator "<==" ∧ 1 ≤ 4294967295 ∧ 4294967295 ≤ 4294967295 ∧
      ∃ level, PrecedenceTable.parseEntry ("<==" ++ "=" ++ toString 4294967295) =
        .ok ("<==", level) ∧ level.rank = 4294967295) ∧
    ∀ operator rank, ¬PrecedenceTable.WritesEntry "<===-1" operator rank := by
  have isOperator : PrecedenceTable.IsOperator "<==" := by
    apply PrecedenceTable.isOperatorText_toList_iff.mp
    decide
  refine ⟨?_, ⟨isOperator, by decide, by decide, ?_⟩, ?_⟩
  · exact ⟨⟨7, by decide, by decide⟩, by decide +kernel, rfl⟩
  · exact entries_are_read_as_written.2.2 "<==" 4294967295 isOperator (by decide) (by decide)
  · apply (entries_are_read_as_written.2.1 "<===-1").mp
    decide +kernel

end OperatorCalculator
