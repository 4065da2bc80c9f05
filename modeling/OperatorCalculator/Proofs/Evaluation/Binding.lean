import OperatorCalculator.Evaluation.Grouping
import OperatorCalculator.Proofs.Evaluation.Alternation

/-
Groupings that respect the levels of a table.

An operator may stand above another on its left if that one binds at least as
tightly, and above one on its right only if that one binds tighter.  So equal levels
group to the left.  This module proves that at most one such grouping has given
operands and operators in a given order.
-/

set_option autoImplicit false

namespace OperatorCalculator
namespace Grouping

def flatten : Grouping → Alternation String String
  | .operand text => ⟨text, []⟩
  | .application left operator right =>
      ⟨left.flatten.first,
        left.flatten.others ++ (operator, right.flatten.first) :: right.flatten.others⟩

/-- The operator on top, if there is one, has rank `minimum` or above. -/
def BindsFrom (table : PrecedenceTable) (minimum : Nat) : Grouping → Prop
  | .operand _ => True
  | .application _ operator _ =>
      ∃ level, table.level? operator = some level ∧ minimum ≤ level.rank

/-- Every operator binds no tighter than those on its left and less than those on its
right. -/
def Follows (table : PrecedenceTable) : Grouping → Prop
  | .operand _ => True
  | .application left operator right =>
      ∃ level, table.level? operator = some level ∧
        left.Follows table ∧ left.BindsFrom table level.rank ∧
        right.Follows table ∧ right.BindsFrom table (level.rank + 1)

variable {table : PrecedenceTable}

theorem BindsFrom.mono {grouping : Grouping} {least minimum : Nat}
    (hLeast : least ≤ minimum) (hBinds : grouping.BindsFrom table minimum) :
    grouping.BindsFrom table least := by
  cases grouping with
  | operand text => trivial
  | application left operator right =>
      obtain ⟨level, hLevel, hRank⟩ := hBinds
      exact ⟨level, hLevel, Nat.le_trans hLeast hRank⟩

/-- The operator on top is a loosest one, so its rank bounds all others from below. -/
theorem le_rank_of_mem_flatten {grouping : Grouping} {minimum : Nat}
    (hFollows : grouping.Follows table) (hBinds : grouping.BindsFrom table minimum) :
    ∀ item, item ∈ grouping.flatten.others →
      ∃ level, table.level? item.1 = some level ∧ minimum ≤ level.rank := by
  induction grouping generalizing minimum with
  | operand text =>
      intro item member
      contradiction
  | application left operator right ihLeft ihRight =>
      obtain ⟨level, hLevel, leftFollows, leftBinds, rightFollows, rightBinds⟩ := hFollows
      obtain ⟨top, hTop, hRank⟩ := hBinds
      obtain rfl : top = level := Option.some.inj (hTop.symm.trans hLevel)
      intro item member
      simp only [flatten, List.mem_append, List.mem_cons] at member
      rcases member with inLeft | rfl | inRight
      · exact ihLeft leftFollows (leftBinds.mono hRank) item inLeft
      · exact ⟨top, hLevel, hRank⟩
      · exact ihRight rightFollows (rightBinds.mono (by omega)) item inRight

theorem append_cons_cases {items : Type} {front back otherFront otherBack : List items}
    {middle otherMiddle : items}
    (same : front ++ middle :: back = otherFront ++ otherMiddle :: otherBack) :
    (∃ between, otherFront = front ++ middle :: between ∧
        back = between ++ otherMiddle :: otherBack) ∨
      (front = otherFront ∧ middle = otherMiddle ∧ back = otherBack) ∨
      ∃ between, front = otherFront ++ otherMiddle :: between ∧
        otherBack = between ++ middle :: back := by
  rcases List.append_eq_append_iff.mp same with
    ⟨between, hOtherFront, hBack⟩ | ⟨between, hFront, hOtherBack⟩
  · cases between with
    | nil =>
        rw [List.append_nil] at hOtherFront
        cases hBack
        exact Or.inr (Or.inl ⟨hOtherFront.symm, rfl, rfl⟩)
    | cons item between =>
        cases hBack
        exact Or.inl ⟨between, hOtherFront, rfl⟩
  · cases between with
    | nil =>
        rw [List.append_nil] at hFront
        cases hOtherBack
        exact Or.inr (Or.inl ⟨hFront, rfl, rfl⟩)
    | cons item between =>
        cases hOtherBack
        exact Or.inr (Or.inr ⟨between, hFront, rfl⟩)

/-- Two cuts of a list agree if behind each one all ranks are higher than at the cut,
and before each one none is lower. -/
theorem cut_unique {items : Type} (rank : items → Nat)
    {front back otherFront otherBack : List items} {middle otherMiddle : items}
    (same : front ++ middle :: back = otherFront ++ otherMiddle :: otherBack)
    (hFront : ∀ item ∈ front, rank middle ≤ rank item)
    (hBack : ∀ item ∈ back, rank middle < rank item)
    (hOtherFront : ∀ item ∈ otherFront, rank otherMiddle ≤ rank item)
    (hOtherBack : ∀ item ∈ otherBack, rank otherMiddle < rank item) :
    front = otherFront ∧ middle = otherMiddle ∧ back = otherBack := by
  -- A cut further to the right would be too high for one side and too low for the other.
  rcases append_cons_cases same with
    ⟨between, rfl, rfl⟩ | agree | ⟨between, rfl, rfl⟩
  · have above := hBack otherMiddle (by simp)
    have below := hOtherFront middle (by simp)
    omega
  · exact agree
  · have above := hOtherBack middle (by simp)
    have below := hFront otherMiddle (by simp)
    omega

def rankOf (table : PrecedenceTable) (operator : String) : Nat :=
  (table.level? operator).elim 0 Level.rank

theorem Follows.ranks {left right : Grouping} {operator : String}
    (hFollows : (Grouping.application left operator right).Follows table) :
    (∀ item ∈ left.flatten.others, rankOf table operator ≤ rankOf table item.1) ∧
      ∀ item ∈ right.flatten.others, rankOf table operator < rankOf table item.1 := by
  obtain ⟨level, hLevel, leftFollows, leftBinds, rightFollows, rightBinds⟩ := hFollows
  constructor
  · intro item member
    obtain ⟨inner, hInner, hRank⟩ := le_rank_of_mem_flatten leftFollows leftBinds item member
    simp only [rankOf, hLevel, hInner, Option.elim_some]
    exact hRank
  · intro item member
    obtain ⟨inner, hInner, hRank⟩ :=
      le_rank_of_mem_flatten rightFollows rightBinds item member
    simp only [rankOf, hLevel, hInner, Option.elim_some]
    omega

theorem Follows.unique {first second : Grouping} (hFirst : first.Follows table)
    (hSecond : second.Follows table) (same : first.flatten = second.flatten) :
    first = second := by
  induction first generalizing second with
  | operand text =>
      cases second with
      | operand other =>
          simp only [flatten, Alternation.mk.injEq, and_true] at same
          rw [same]
      | application left operator right =>
          simp [flatten] at same
  | application left operator right ihLeft ihRight =>
      cases second with
      | operand other =>
          simp [flatten] at same
      | application otherLeft otherOperator otherRight =>
          obtain ⟨leftRanks, rightRanks⟩ := hFirst.ranks
          obtain ⟨otherLeftRanks, otherRightRanks⟩ := hSecond.ranks
          simp only [flatten, Alternation.mk.injEq] at same
          obtain ⟨sameFirst, sameOthers⟩ := same
          obtain ⟨sameLeft, sameMiddle, sameRight⟩ :=
            cut_unique (fun item => rankOf table item.1) sameOthers leftRanks rightRanks
              otherLeftRanks otherRightRanks
          simp only [Prod.mk.injEq] at sameMiddle
          obtain ⟨rfl, sameRightFirst⟩ := sameMiddle
          obtain ⟨_, _, leftFollows, _, rightFollows, _⟩ := hFirst
          obtain ⟨_, _, otherLeftFollows, _, otherRightFollows, _⟩ := hSecond
          have leftEq : left = otherLeft := by
            apply ihLeft leftFollows otherLeftFollows
            exact Alternation.ext sameFirst sameLeft
          have rightEq : right = otherRight := by
            apply ihRight rightFollows otherRightFollows
            exact Alternation.ext sameRightFirst sameRight
          rw [leftEq, rightEq]

end Grouping
end OperatorCalculator
