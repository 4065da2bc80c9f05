import Std.Data.ExtTreeMap

/-
Precedence tables.

A precedence table says which texts are operators and how tightly each one binds.
It is a finite map from operators to levels.  Two tables are equal exactly when
they give the same level to every text, whatever led to them.
-/

set_option autoImplicit false

namespace OperatorCalculator

/-! ### Levels -/

/-- How tightly an operator binds: a higher rank binds tighter.  The lowest rank is
one and the highest is the largest thirty-two bit word. -/
structure Level where
  rank : Nat
  positive : 1 ≤ rank
  bounded : rank ≤ 4294967295
  deriving DecidableEq

def Level.ofRank? (rank : Nat) : Option Level :=
  if hRank : 1 ≤ rank ∧ rank ≤ 4294967295 then some ⟨rank, hRank.1, hRank.2⟩ else none

/-- The level of a word; the word zero stands for no level. -/
def Level.ofWord? (word : UInt32) : Option Level :=
  Level.ofRank? word.toNat

def Level.tighter? (level : Level) : Option Level :=
  Level.ofRank? (level.rank + 1)

theorem Level.ofRank?_eq_some_iff {rank : Nat} {level : Level} :
    Level.ofRank? rank = some level ↔ level.rank = rank := by
  obtain ⟨inner, positive, bounded⟩ := level
  constructor
  · intro hSome
    unfold Level.ofRank? at hSome
    split at hSome
    · simpa [eq_comm] using hSome
    · simp at hSome
  · rintro rfl
    exact dif_pos ⟨positive, bounded⟩

theorem Level.ofWord?_eq_none_iff {word : UInt32} :
    Level.ofWord? word = none ↔ word = 0 := by
  have small : word.toNat < 4294967296 := word.toNat_lt
  unfold Level.ofWord? Level.ofRank?
  split
  · rename_i inRange
    simp only [reduceCtorEq, false_iff]
    rintro rfl
    simp at inRange
  · rename_i outOfRange
    simp only [true_iff]
    apply UInt32.toNat_inj.mp
    simp only [UInt32.toNat_zero]
    omega

/-! ### Tables -/

structure PrecedenceTable where
  levels : Std.ExtTreeMap String Level
  deriving DecidableEq

namespace PrecedenceTable

def empty : PrecedenceTable := ⟨∅⟩

def level? (table : PrecedenceTable) (operator : String) : Option Level :=
  table.levels[operator]?

def contains (table : PrecedenceTable) (operator : String) : Bool :=
  table.levels.contains operator

def size (table : PrecedenceTable) : Nat :=
  table.levels.size

def isEmpty (table : PrecedenceTable) : Bool :=
  table.levels.isEmpty

def toList (table : PrecedenceTable) : List (String × Level) :=
  table.levels.toList

/-- Gives an operator a level, or takes the operator out. -/
def assign (table : PrecedenceTable) (operator : String) : Option Level → PrecedenceTable
  | some level => ⟨table.levels.insert operator level⟩
  | none => ⟨table.levels.erase operator⟩

/-- Enters an operator at the level of a word; the word zero takes the operator out. -/
def enter (table : PrecedenceTable) (operator : String) (word : UInt32) : PrecedenceTable :=
  table.assign operator (Level.ofWord? word)

/-- Enters operators one after the other, so that later entries replace earlier ones. -/
def enterAll (table : PrecedenceTable) (entries : List (String × UInt32)) :
    PrecedenceTable :=
  entries.foldl (fun entered (operator, word) => entered.enter operator word) table

def ofList (entries : List (String × UInt32)) : PrecedenceTable :=
  empty.enterAll entries

/-- The usual operators: alternatives bind least, then conjunctions, comparisons,
sums, and products. -/
def standard : PrecedenceTable :=
  ofList
    [("||", 1), ("&&", 2),
     ("==", 3), ("!=", 3), ("<", 3), ("<=", 3), (">", 3), (">=", 3),
     ("+", 4), ("-", 4),
     ("*", 5), ("/", 5), ("%", 5)]

/-! ### What a lookup finds -/

@[simp] theorem level?_empty (operator : String) : empty.level? operator = none := by
  simp [empty, level?]

theorem level?_assign (table : PrecedenceTable) (operator name : String)
    (level : Option Level) :
    (table.assign operator level).level? name =
      if operator = name then level else table.level? name := by
  cases level with
  | some level =>
      simp only [assign, level?, Std.ExtTreeMap.getElem?_insert,
        Std.compare_eq_iff_eq]
  | none =>
      simp only [assign, level?, Std.ExtTreeMap.getElem?_erase,
        Std.compare_eq_iff_eq]

theorem contains_eq_isSome (table : PrecedenceTable) (operator : String) :
    table.contains operator = (table.level? operator).isSome := by
  simp [contains, level?]

theorem ext_level? {first second : PrecedenceTable}
    (agree : ∀ operator, first.level? operator = second.level? operator) :
    first = second := by
  cases first
  cases second
  exact congrArg PrecedenceTable.mk (Std.ExtTreeMap.ext_getElem? agree)

end PrecedenceTable
end OperatorCalculator
