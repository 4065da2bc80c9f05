import OperatorCalculator.Evaluation.Strict
import OperatorCalculator.PrecedenceTable.Entry

/-
Tables with a history.

However a table has come about, a lookup finds the word that was entered last, unless that is
zero, and what the table it started from says if nothing was entered.  So entries for
different operators may change places, and a table that keeps bare words, from which the word
zero is taken out, goes through the same history without ever holding a zero.
-/

set_option autoImplicit false

namespace OperatorCalculator

/-! ### Words and levels -/

namespace Level

def word (level : Level) : UInt32 :=
  UInt32.ofNat level.rank

theorem toNat_word (level : Level) : level.word.toNat = level.rank := by
  have bounded := level.bounded
  rw [word, UInt32.toNat_ofNat']
  omega

theorem ofWord?_word (level : Level) : Level.ofWord? level.word = some level :=
  Level.ofRank?_eq_some_iff.mpr level.toNat_word.symm

theorem map_rank_ofWord? (word : UInt32) :
    (Level.ofWord? word).map rank = if word = 0 then none else some word.toNat := by
  by_cases hWord : word = 0
  · rw [if_pos hWord, Level.ofWord?_eq_none_iff.mpr hWord]
    rfl
  · rw [if_neg hWord]
    cases hLevel : Level.ofWord? word with
    | none => exact absurd (Level.ofWord?_eq_none_iff.mp hLevel) hWord
    | some level =>
        rw [Option.map_some, Level.ofRank?_eq_some_iff.mp hLevel]

end Level

namespace PrecedenceTable

/-! ### Histories -/

inductive Step where
  | insert (operator : String) (word : UInt32)
  | extend (entries : List (String × UInt32))
  /-- A new table is made of entries. -/
  | collect (entries : List (String × UInt32))
  /-- A written entry is inserted, if it is one. -/
  | insertWritten (entry : String)

def apply (table : PrecedenceTable) : Step → PrecedenceTable
  | .insert operator word => table.enter operator word
  | .extend entries => table.enterAll entries
  | .collect entries => ofList entries
  | .insertWritten entry =>
      match parseEntry entry with
      | .ok (operator, level) => table.assign operator (some level)
      | .error _ => table

namespace Step

/-- The words that a step enters, in order. -/
def entries : Step → List (String × UInt32)
  | .insert operator word => [(operator, word)]
  | .extend entries | .collect entries => entries
  | .insertWritten entry =>
      match parseEntry entry with
      | .ok (operator, level) => [(operator, level.word)]
      | .error _ => []

def startsOver : Step → Bool
  | .collect _ => true
  | .insert _ _ | .extend _ | .insertWritten _ => false

end Step

theorem apply_eq_enterAll (table : PrecedenceTable) (step : Step) :
    table.apply step = (if step.startsOver then empty else table).enterAll step.entries := by
  cases step with
  | insert operator word => rfl
  | extend entries => rfl
  | collect entries => rfl
  | insertWritten entry =>
      simp only [apply, Step.entries, Step.startsOver, Bool.false_eq_true, if_false]
      cases parseEntry entry with
      | error fault => rfl
      | ok parsed =>
          show _ = table.enter parsed.1 parsed.2.word
          rw [enter, Level.ofWord?_word]

/-! ### What a history leads to -/

/-- The table that a history has started from, and what was entered since. -/
structure Record where
  base : PrecedenceTable
  entries : List (String × UInt32)

namespace Record

def add (record : Record) (step : Step) : Record :=
  if step.startsOver then ⟨.empty, step.entries⟩
  else { record with entries := record.entries ++ step.entries }

/-- The word that was entered last for an operator. -/
def last? (record : Record) (operator : String) : Option UInt32 :=
  record.entries.reverse.lookup operator

def table (record : Record) : PrecedenceTable :=
  record.base.enterAll record.entries

theorem table_add (record : Record) (step : Step) :
    (record.add step).table = record.table.apply step := by
  rw [apply_eq_enterAll, add]
  cases step.startsOver with
  | true => rfl
  | false => exact List.foldl_append

theorem table_foldl_add (record : Record) (history : List Step) :
    (history.foldl add record).table = history.foldl apply record.table := by
  induction history generalizing record with
  | nil => rfl
  | cons step history ih => rw [List.foldl_cons, List.foldl_cons, ih, table_add]

end Record

theorem level?_enterAll (table : PrecedenceTable) (entries : List (String × UInt32))
    (operator : String) :
    (table.enterAll entries).level? operator =
      match entries.reverse.lookup operator with
      | some word => Level.ofWord? word
      | none => table.level? operator := by
  induction entries generalizing table with
  | nil => rfl
  | cons entry entries ih =>
      obtain ⟨name, word⟩ := entry
      rw [enterAll, List.foldl_cons, ← enterAll, ih, List.reverse_cons, List.lookup_append]
      cases entries.reverse.lookup operator with
      | some later => rfl
      | none =>
          by_cases same : name = operator
          · rw [same, List.lookup_cons_self]
            exact (level?_assign table operator operator _).trans (if_pos rfl)
          · have apart : (operator == name) = false := beq_eq_false_iff_ne.mpr (Ne.symm same)
            rw [List.lookup_cons, apart, List.lookup_nil]
            exact (level?_assign table name operator _).trans (if_neg same)

theorem lookup_reverse_eq_none {entries others : List (String × UInt32)}
    (hApart : ∀ entry ∈ entries, ∀ other ∈ others, entry.1 ≠ other.1) {operator : String}
    {word : UInt32} (hFound : entries.reverse.lookup operator = some word) :
    others.reverse.lookup operator = none := by
  rcases List.lookup_eq_some_iff.mp hFound with ⟨front, back, whole, _⟩
  have member : (operator, word) ∈ entries := by
    rw [← List.mem_reverse, whole]
    exact List.mem_append_right front List.mem_cons_self
  rw [List.lookup_eq_none_iff]
  intro other inOthers
  rw [bne_iff_ne]
  exact hApart _ member other (List.mem_reverse.mp inOthers)

theorem enterAll_comm (table : PrecedenceTable) {entries others : List (String × UInt32)}
    (hApart : ∀ entry ∈ entries, ∀ other ∈ others, entry.1 ≠ other.1) :
    (table.enterAll entries).enterAll others = (table.enterAll others).enterAll entries := by
  apply ext_level?
  intro operator
  simp only [level?_enterAll]
  cases hFound : entries.reverse.lookup operator with
  | none => rfl
  | some word => rw [lookup_reverse_eq_none hApart hFound]

/-- Two steps that enter different operators may change places, unless one starts over. -/
structure Step.Apart (first second : Step) : Prop where
  firstGoesOn : first.startsOver = false
  secondGoesOn : second.startsOver = false
  operators : ∀ entry ∈ first.entries, ∀ other ∈ second.entries, entry.1 ≠ other.1

theorem Step.Apart.apply_comm {first second : Step} (hApart : first.Apart second)
    (table : PrecedenceTable) :
    (table.apply first).apply second = (table.apply second).apply first := by
  simp only [apply_eq_enterAll, hApart.firstGoesOn, hApart.secondGoesOn, Bool.false_eq_true,
    if_false]
  exact enterAll_comm table hApart.operators

/-! ### A table of bare words -/

abbrev Words := Std.ExtTreeMap String UInt32

namespace Words

def enter (words : Words) (operator : String) (word : UInt32) : Words :=
  if word = 0 then words.erase operator else words.insert operator word

def enterAll (words : Words) (entries : List (String × UInt32)) : Words :=
  entries.foldl (fun entered (operator, word) => enter entered operator word) words

def apply (words : Words) (step : Step) : Words :=
  enterAll (if step.startsOver then ∅ else words) step.entries

/-- Lookups find the same numbers. -/
def Holds (words : Words) (table : PrecedenceTable) : Prop :=
  ∀ operator : String, (words[operator]?).map UInt32.toNat = (table.level? operator).map Level.rank

def ofTable (table : PrecedenceTable) : Words :=
  table.levels.map fun _ level => level.word

theorem holds_ofTable (table : PrecedenceTable) : Holds (ofTable table) table := by
  intro operator
  rw [ofTable, Std.ExtTreeMap.getElem?_map, Option.map_map, level?]
  exact Option.map_congr (fun level _ => level.toNat_word)

namespace Holds

variable {words : Words} {table : PrecedenceTable}

theorem enter (hHolds : Holds words table) (operator : String) (word : UInt32) :
    Holds (words.enter operator word) (table.enter operator word) := by
  intro name
  rw [PrecedenceTable.enter, level?_assign, Words.enter]
  by_cases hWord : word = 0
  · rw [if_pos hWord, Std.ExtTreeMap.getElem?_erase]
    simp only [Std.compare_eq_iff_eq]
    by_cases same : operator = name
    · rw [if_pos same, if_pos same, Level.map_rank_ofWord?, if_pos hWord]
      rfl
    · rw [if_neg same, if_neg same]
      exact hHolds name
  · rw [if_neg hWord, Std.ExtTreeMap.getElem?_insert]
    simp only [Std.compare_eq_iff_eq]
    by_cases same : operator = name
    · rw [if_pos same, if_pos same, Level.map_rank_ofWord?, if_neg hWord]
      rfl
    · rw [if_neg same, if_neg same]
      exact hHolds name

theorem enterAll (hHolds : Holds words table) (entries : List (String × UInt32)) :
    Holds (words.enterAll entries) (table.enterAll entries) := by
  induction entries generalizing words table with
  | nil => exact hHolds
  | cons entry entries ih => exact ih (hHolds.enter entry.1 entry.2)

theorem apply (hHolds : Holds words table) (step : Step) :
    Holds (words.apply step) (table.apply step) := by
  rw [apply_eq_enterAll, Words.apply]
  apply enterAll
  cases step.startsOver with
  | true =>
      intro operator
      simp
  | false => exact hHolds

theorem foldl_apply (hHolds : Holds words table) (history : List Step) :
    Holds (history.foldl Words.apply words) (history.foldl PrecedenceTable.apply table) := by
  induction history generalizing words table with
  | nil => exact hHolds
  | cons step history ih => exact ih (hHolds.apply step)

theorem ne_zero (hHolds : Holds words table) (operator : String) :
    words[operator]? ≠ some 0 := by
  intro hZero
  have found := hHolds operator
  rw [hZero] at found
  rcases Option.map_eq_some_iff.mp found.symm with ⟨level, _, hRank⟩
  have positive := level.positive
  rw [hRank] at positive
  contradiction

end Holds
end Words

/-! ### Operators and their number -/

theorem isEmpty_iff_size_eq_zero (table : PrecedenceTable) :
    table.isEmpty = true ↔ table.size = 0 := by
  rw [isEmpty, Std.ExtTreeMap.isEmpty_eq_size_beq_zero, beq_iff_eq]
  rfl

theorem contains_iff_exists_level (table : PrecedenceTable) (operator : String) :
    table.contains operator = true ↔
      ∃ level, table.level? operator = some level ∧ 1 ≤ level.rank := by
  rw [contains_eq_isSome, Option.isSome_iff_exists]
  constructor
  · rintro ⟨level, hLevel⟩
    exact ⟨level, hLevel, level.positive⟩
  · rintro ⟨level, hLevel, _⟩
    exact ⟨level, hLevel⟩

/-- Each operator is listed once, with its level, and nothing else is. -/
structure Lists (table : PrecedenceTable) (listed : List (String × Level)) : Prop where
  nodup : (listed.map Prod.fst).Nodup
  mem_iff : ∀ operator level, (operator, level) ∈ listed ↔ table.level? operator = some level
  length : listed.length = table.size

theorem lists_toList (table : PrecedenceTable) : table.Lists table.toList := by
  refine ⟨?_, ?_, Std.ExtTreeMap.length_toList⟩
  · rw [toList, Std.ExtTreeMap.map_fst_toList_eq_keys]
    exact Std.ExtTreeMap.nodup_keys
  · intro operator level
    exact Std.ExtTreeMap.mem_toList_iff_getElem?_eq_some

theorem isOperatorOf_current_iff (table : PrecedenceTable) (cursor : Cursor) :
    cursor.current.isOperatorOf table = true ↔
      ∃ level, cursor.level? table = some level ∧ 1 ≤ level.rank := by
  rw [Token.isOperatorOf, Cursor.level?]
  cases cursor.current.isEnd with
  | true => simp
  | false => exact table.contains_iff_exists_level cursor.current.text

end PrecedenceTable

open PrecedenceTable (Record Step Words)

/-- Whatever the history of a table, a lookup finds the word that was entered last if it is not
zero, and no level if it is; if none was entered it finds what the table says that the history
has started from.  What is contained is what has a level, the size counts it, steps that enter
different operators may change places, and a table is known by its lookups.  So a table of bare
words goes through the same history without holding a zero, and a scan, a check and an
evaluation with operators of every rank know the same operators. -/
theorem table_holds_last_entries (base : PrecedenceTable) (history : List Step) :
    let table := history.foldl PrecedenceTable.apply base
    let record := history.foldl Record.add ⟨base, []⟩
    let words := history.foldl Words.apply (Words.ofTable base)
    (∀ operator,
      (∀ word, record.last? operator = some word →
        (table.level? operator).map Level.rank = if word = 0 then none else some word.toNat) ∧
      (record.last? operator = none →
        table.level? operator = record.base.level? operator)) ∧
    (∀ operator, table.contains operator = true ↔
      ∃ level, table.level? operator = some level ∧ 1 ≤ level.rank) ∧
    (table.Lists table.toList ∧ (table.isEmpty = true ↔ table.size = 0)) ∧
    (∀ (first second : Step) (later : List Step), first.Apart second →
      (history ++ first :: second :: later).foldl PrecedenceTable.apply base =
        (history ++ second :: first :: later).foldl PrecedenceTable.apply base) ∧
    (∀ front (entry other : String × UInt32) back, entry.1 ≠ other.1 →
      table.enterAll (front ++ entry :: other :: back) =
        table.enterAll (front ++ other :: entry :: back)) ∧
    (∀ other, table = other ↔ ∀ operator, table.level? operator = other.level? operator) ∧
    (words.Holds table ∧ ∀ operator : String, words[operator]? ≠ some 0) ∧
    ∀ cursor : Cursor,
      (cursor.current.isOperatorOf table = true ↔
        ∃ level, cursor.level? table = some level ∧ 1 ≤ level.rank) ∧
      (cursor.current.isEnd = false →
        cursor.current.isOperatorOf table = table.contains cursor.current.text) := by
  intro table record words
  have same : record.table = table := Record.table_foldl_add ⟨base, []⟩ history
  refine ⟨?_, table.contains_iff_exists_level,
    ⟨table.lists_toList, table.isEmpty_iff_size_eq_zero⟩, ?_, ?_, ?_, ?_, ?_⟩
  · intro operator
    rw [← same, Record.table, PrecedenceTable.level?_enterAll, ← Record.last?]
    constructor
    · intro word hLast
      rw [hLast]
      exact Level.map_rank_ofWord? word
    · intro hLast
      rw [hLast]
  · intro first second later hApart
    simp only [List.foldl_append, List.foldl_cons]
    rw [hApart.apply_comm]
  · intro front entry other back hApart
    have apart : ∀ first ∈ [entry], ∀ second ∈ [other], first.1 ≠ second.1 := by simpa using hApart
    have swapped := PrecedenceTable.enterAll_comm (table.enterAll front) apart
    simp only [PrecedenceTable.enterAll, List.foldl_append, List.foldl_cons, List.foldl_nil]
      at swapped ⊢
    rw [swapped]
  · intro other
    constructor
    · intro equal operator
      rw [equal]
    · exact PrecedenceTable.ext_level?
  · have holds := (Words.holds_ofTable base).foldl_apply history
    exact ⟨holds, holds.ne_zero⟩
  · intro cursor
    refine ⟨table.isOperatorOf_current_iff cursor, ?_⟩
    intro hToken
    rw [Token.isOperatorOf, hToken]
    rfl

end OperatorCalculator
