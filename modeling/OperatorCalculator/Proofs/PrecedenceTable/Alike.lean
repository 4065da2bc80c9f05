import OperatorCalculator.PrecedenceTable.Basic

/-
Tables that are alike.

Of a table, an expression shows only which of its texts are operators, and which of two
operators binds at least as tightly as the other.  Two tables that agree on this are alike
in the expression, whatever levels they give.  Tables with the same operators whose levels
rise together are alike in every expression.
-/

set_option autoImplicit false

namespace OperatorCalculator

/-- The text is not empty and stands somewhere among the characters. -/
def OccursIn (characters : List Char) (text : String) : Prop :=
  text ≠ "" ∧ text.toList <:+: characters

instance (characters : List Char) (text : String) : Decidable (OccursIn characters text) :=
  inferInstanceAs (Decidable (text ≠ "" ∧ text.toList <:+: characters))

theorem OccursIn.mono {inner outer : List Char} {text : String} (hInner : inner <:+: outer)
    (hOccurs : OccursIn inner text) : OccursIn outer text :=
  ⟨hOccurs.1, hOccurs.2.trans hInner⟩

theorem Level.eq_of_rank_eq {level other : Level} (hRank : level.rank = other.rank) :
    level = other := by
  cases level
  cases other
  cases hRank
  rfl

namespace PrecedenceTable

/-! ### Alike in an expression -/

structure AlikeIn (characters : List Char) (first second : PrecedenceTable) : Prop where
  contains : ∀ text, OccursIn characters text → first.contains text = second.contains text
  order : ∀ operator other, OccursIn characters operator → OccursIn characters other →
    ∀ low high newLow newHigh,
      first.level? operator = some low → first.level? other = some high →
      second.level? operator = some newLow → second.level? other = some newHigh →
      (low.rank ≤ high.rank ↔ newLow.rank ≤ newHigh.rank)

namespace AlikeIn

variable {first second : PrecedenceTable}

theorem symm {characters : List Char} (hAlike : AlikeIn characters first second) :
    AlikeIn characters second first := by
  constructor
  · intro text hText
    exact (hAlike.contains text hText).symm
  · intro operator other hOperator hOther low high newLow newHigh hLow hHigh hNewLow hNewHigh
    exact (hAlike.order operator other hOperator hOther newLow newHigh low high
      hNewLow hNewHigh hLow hHigh).symm

theorem mono {inner outer : List Char} (hInner : inner <:+: outer)
    (hAlike : AlikeIn outer first second) : AlikeIn inner first second := by
  constructor
  · intro text hText
    exact hAlike.contains text (hText.mono hInner)
  · intro operator other hOperator hOther
    exact hAlike.order operator other (hOperator.mono hInner) (hOther.mono hInner)

theorem exists_level? {characters : List Char} (hAlike : AlikeIn characters first second)
    {text : String} (hText : OccursIn characters text) {level : Level}
    (hLevel : first.level? text = some level) :
    ∃ newLevel, second.level? text = some newLevel := by
  have same := hAlike.contains text hText
  rw [contains_eq_isSome, contains_eq_isSome, hLevel] at same
  exact Option.isSome_iff_exists.mp same.symm

end AlikeIn

/-! ### Levels that rise together -/

/-- The second table has the operators of the first one, each moved to another level, and
what is higher in the first table is higher in the second. -/
structure Relevels (relevel : Level → Level) (first second : PrecedenceTable) : Prop where
  level? : ∀ operator, second.level? operator = (first.level? operator).map relevel
  increasing : ∀ operator other low high,
    first.level? operator = some low → first.level? other = some high →
    low.rank < high.rank → (relevel low).rank < (relevel high).rank

theorem Relevels.rank_le_iff {relevel : Level → Level} {first second : PrecedenceTable}
    (hRelevels : Relevels relevel first second) {operator other : String} {low high : Level}
    (hLow : first.level? operator = some low) (hHigh : first.level? other = some high) :
    low.rank ≤ high.rank ↔ (relevel low).rank ≤ (relevel high).rank := by
  rcases Nat.lt_trichotomy low.rank high.rank with lower | same | higher
  · have rising := hRelevels.increasing operator other low high hLow hHigh lower
    omega
  · rw [Level.eq_of_rank_eq same]
    simp only [Nat.le_refl]
  · have rising := hRelevels.increasing other operator high low hHigh hLow higher
    omega

theorem Relevels.alikeIn {relevel : Level → Level} {first second : PrecedenceTable}
    (hRelevels : Relevels relevel first second) (characters : List Char) :
    AlikeIn characters first second := by
  constructor
  · intro text _
    rw [contains_eq_isSome, contains_eq_isSome, hRelevels.level?, Option.isSome_map]
  · intro operator other _ _ low high newLow newHigh hLow hHigh hNewLow hNewHigh
    rw [hRelevels.level?, hLow] at hNewLow
    rw [hRelevels.level?, hHigh] at hNewHigh
    obtain rfl : relevel low = newLow := Option.some.inj hNewLow
    obtain rfl : relevel high = newHigh := Option.some.inj hNewHigh
    exact hRelevels.rank_le_iff hLow hHigh

end PrecedenceTable
end OperatorCalculator
