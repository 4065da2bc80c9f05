import Mathlib.Data.Finset.Card
import OperatorCalculator.Proofs.Evaluation.Expression
import OperatorCalculator.Proofs.PrecedenceTable.History

/-
How deeply evaluations are nested.

An evaluation is nested in another one when it gives the right operand of an operator.  It
asks for ranks above that of the operator, whose own rank was asked for around it.  So along
a nesting the levels of the operators rise, and no level is met twice: the table bounds the
nesting, however long the expression is.  To say so, evaluation is repeated with a budget
that each nested evaluation takes one from.
-/

set_option autoImplicit false

namespace OperatorCalculator

variable {m : Type → Type} [Monad m] {V : Type}

/-! ### Evaluating within a budget -/

namespace Cursor

section Budget

variable (interpretation : Interpretation m V) (table : PrecedenceTable)
  (deeper : Nat → (start : Cursor) → OptionT m (V × start.Onward))

/-- The right operand of an operator.  What binds tighter is evaluated by `deeper`; a single
operand needs no further evaluation. -/
def rightOperandWithin (level : Level) (cursor : Cursor) : OptionT m (V × cursor.Onward) :=
  match level.tighter? with
  | some tighter => deeper tighter.rank cursor
  | none => do
      let value ← interpretation.literal (cursor.operand table).1
      return (value, (cursor.operand table).2)

def climbWithin (origin : Cursor) (minimum : Nat) (left : V) (cursor : origin.Onward) :
    OptionT m (V × origin.Onward) :=
  match _hLevel : cursor.val.level? table with
  | none => pure (left, cursor)
  | some level =>
      if minimum ≤ level.rank then do
        let (right, behindRight) ←
          rightOperandWithin interpretation table deeper level (cursor.val.advance table)
        let combined ← interpretation.apply left cursor.val.current.text right
        climbWithin origin minimum combined (followOn cursor behindRight)
      else
        pure (left, cursor)
termination_by cursor.val.pending
decreasing_by
  have moved := pending_advance_lt table (isEnd_eq_false_of_level? _hLevel)
  exact Nat.lt_of_le_of_lt behindRight.property moved

end Budget

/-- Evaluates an expression with no more evaluations nested in each other than the budget
allows.  When it is used up there is no result. -/
def expressionWithin (interpretation : Interpretation m V) (table : PrecedenceTable) :
    Nat → Nat → (cursor : Cursor) → OptionT m (V × cursor.Onward)
  | 0, _, _ => failure
  | budget + 1, minimum, cursor => do
      let (text, behindOperand) := cursor.operand table
      let first ← interpretation.literal text
      climbWithin interpretation table (expressionWithin interpretation table budget) cursor
        minimum first behindOperand

end Cursor

def evaluateWithin (interpretation : Interpretation m V) (table : PrecedenceTable)
    (budget : Nat) (source : String) : m (Option V) := do
  let result ← ((Cursor.start table source).expressionWithin interpretation table budget 1).run
  return result.map Prod.fst

/-! ### The levels of a table -/

/-- The level that nothing binds tighter than. -/
def Level.highest : Level := ⟨4294967295, by omega, by omega⟩

theorem Level.rank_highest : Level.highest.rank = 4294967295 := rfl

theorem Level.ne_highest_of_tighter? {level tighter : Level}
    (hTighter : level.tighter? = some tighter) : level ≠ highest := by
  have next := Level.rank_tighter hTighter
  have bounded := tighter.bounded
  intro same
  rw [same, rank_highest] at next
  omega

namespace PrecedenceTable

/-- The levels that operators of the table have, each of them once. -/
def distinctLevels (table : PrecedenceTable) : Finset Level :=
  (table.toList.map Prod.snd).toFinset

theorem mem_distinctLevels {table : PrecedenceTable} {operator : String} {level : Level}
    (hLevel : table.level? operator = some level) : level ∈ table.distinctLevels := by
  have listed := (table.lists_toList.mem_iff operator level).mpr hLevel
  exact List.mem_toFinset.mpr (List.mem_map_of_mem listed)

/-- How many evaluations can be nested: the outermost one, and one behind an operator of each
level but the highest. -/
def nesting (table : PrecedenceTable) : Nat :=
  if Level.highest ∈ table.distinctLevels then table.distinctLevels.card
  else table.distinctLevels.card + 1

/-- The levels that an evaluation with a least rank can meet, and have another nested behind. -/
def levelsFrom (table : PrecedenceTable) (minimum : Nat) : Finset Level :=
  table.distinctLevels.filter fun level => minimum ≤ level.rank ∧ level ≠ Level.highest

theorem nesting_eq (table : PrecedenceTable) :
    table.nesting = (table.levelsFrom 1).card + 1 := by
  have same : table.levelsFrom 1 = table.distinctLevels.erase Level.highest := by
    ext level
    have positive := level.positive
    simp only [levelsFrom, Finset.mem_filter, Finset.mem_erase, positive, true_and, and_comm]
  unfold nesting
  rw [same]
  by_cases hHighest : Level.highest ∈ table.distinctLevels
  · rw [if_pos hHighest, Finset.card_erase_add_one hHighest]
  · rw [if_neg hHighest, Finset.erase_eq_of_notMem hHighest]

/-- Behind an operator there is at least its own level less to meet. -/
theorem card_levelsFrom_lt {table : PrecedenceTable} {minimum : Nat} {level tighter : Level}
    (hLevel : level ∈ table.distinctLevels) (hRank : minimum ≤ level.rank)
    (hTighter : level.tighter? = some tighter) :
    (table.levelsFrom tighter.rank).card < (table.levelsFrom minimum).card := by
  have next := Level.rank_tighter hTighter
  have fewer : table.levelsFrom tighter.rank ⊆ table.levelsFrom minimum := by
    intro other member
    have ⟨inUse, above, notHighest⟩ := Finset.mem_filter.mp member
    exact Finset.mem_filter.mpr ⟨inUse, by omega, notHighest⟩
  apply Finset.card_lt_card
  apply (Finset.ssubset_iff_of_subset fewer).mpr
  refine ⟨level, ?_, ?_⟩
  · exact Finset.mem_filter.mpr ⟨hLevel, hRank, Level.ne_highest_of_tighter? hTighter⟩
  · intro member
    have above := (Finset.mem_filter.mp member).2.1
    omega

end PrecedenceTable

/-! ### A budget that does not run out -/

namespace Cursor

section Enough

variable [LawfulMonad m] {interpretation : Interpretation m V} {table : PrecedenceTable}
  {deeper : Nat → (start : Cursor) → OptionT m (V × start.Onward)}

theorem rightOperandWithin_eq {level : Level} {cursor : Cursor}
    (hDeeper : ∀ tighter, level.tighter? = some tighter →
      deeper tighter.rank cursor =
        liftM (cursor.expression interpretation table tighter.rank)) :
    rightOperandWithin interpretation table deeper level cursor =
      liftM (cursor.rightOperand interpretation table level) := by
  unfold rightOperandWithin rightOperand
  cases hTighter : level.tighter? with
  | some tighter => exact hDeeper tighter hTighter
  | none => simp only [liftM_bind, liftM_pure]

theorem climbWithin_eq {origin : Cursor} {minimum : Nat}
    (hDeeper : ∀ level tighter, level ∈ table.distinctLevels → minimum ≤ level.rank →
      level.tighter? = some tighter → ∀ start,
        deeper tighter.rank start =
          liftM (start.expression interpretation table tighter.rank))
    (left : V) (cursor : origin.Onward) :
    climbWithin interpretation table deeper origin minimum left cursor =
      liftM (climb interpretation table origin minimum left cursor) := by
  induction hPending : cursor.val.pending using Nat.strongRecOn generalizing left cursor with
  | ind pending ih =>
    rw [climbWithin]
    split
    · rename_i hLevel
      rw [climb_of_level?_eq_none _ _ _ hLevel, liftM_pure]
    · rename_i level hLevel
      by_cases hRank : minimum ≤ level.rank
      · have inUse := PrecedenceTable.mem_distinctLevels (Token.level?_text_of_level? hLevel)
        have moved := pending_advance_lt table (isEnd_eq_false_of_level? hLevel)
        rw [if_pos hRank, climb_eq_rightOperand _ _ hLevel hRank,
          rightOperandWithin_eq (fun tighter hTighter =>
            hDeeper level tighter inUse hRank hTighter _)]
        simp only [liftM_bind]
        congr 1
        funext right
        congr 1
        funext combined
        exact ih _ (hPending ▸ Nat.lt_of_le_of_lt right.2.property moved) combined _ rfl
      · rw [if_neg hRank, climb_of_rank_lt _ _ hLevel (Nat.lt_of_not_le hRank), liftM_pure]

/-- Each nested evaluation takes one from the budget, and one level less is ahead of it. -/
theorem expressionWithin_eq {budget minimum : Nat}
    (hBudget : (table.levelsFrom minimum).card < budget) (cursor : Cursor) :
    cursor.expressionWithin interpretation table budget minimum =
      liftM (cursor.expression interpretation table minimum) := by
  induction budget generalizing minimum cursor with
  | zero => exact absurd hBudget (Nat.not_lt_zero _)
  | succ budget ih =>
      have hDeeper : ∀ level tighter : Level, level ∈ table.distinctLevels →
          minimum ≤ level.rank → level.tighter? = some tighter → ∀ start : Cursor,
            start.expressionWithin interpretation table budget tighter.rank =
              liftM (start.expression interpretation table tighter.rank) := by
        intro level tighter inUse hRank hTighter start
        have less := PrecedenceTable.card_levelsFrom_lt inUse hRank hTighter
        exact ih (by omega) start
      rw [expressionWithin, expression]
      simp only [liftM_bind, climbWithin_eq hDeeper]

end Enough

end Cursor

/-- The nesting of evaluations is bounded by the number of levels in the table, not by the
length of the expression: with this budget there is the same value after the same steps. -/
theorem nesting_is_bounded_by_levels [LawfulMonad m] (interpretation : Interpretation m V)
    (table : PrecedenceTable) (source : String) (spare : Nat) :
    evaluateWithin interpretation table (table.nesting + spare) source =
      some <$> evaluate interpretation table source := by
  have enough : (table.levelsFrom 1).card < table.nesting + spare := by
    rw [table.nesting_eq]
    omega
  unfold evaluateWithin evaluate
  rw [Cursor.expressionWithin_eq enough]
  simp [OptionT.run_monadLift]

/-- Behind an operator of the highest level nothing is nested. -/
theorem nesting_is_bounded_by_levels_up_to_highest :
    let table := PrecedenceTable.ofList [("+", 1), ("*", 5), ("^", 4294967295)]
    let source := "1 + 2 * 3 ^ 4 ^ 5 * 6 + 7"
    table.distinctLevels.card = 3 ∧ table.nesting = 3 ∧
      Id.run (evaluateWithin Grouping.interpretation table 3 source) =
        some (Grouping.ofSource table source) ∧
      Id.run (evaluateWithin Grouping.interpretation table 2 source) = none := by
  intro table source
  have levels : table.distinctLevels.card = 3 := by decide +kernel
  have three : table.nesting = 3 := by decide +kernel
  have runsOut : Id.run (evaluateWithin Grouping.interpretation table 2 source) = none := by
    decide +kernel
  have bounded := nesting_is_bounded_by_levels Grouping.interpretation table source 0
  rw [three] at bounded
  exact ⟨levels, three, bounded, runsOut⟩

/-- The five levels of the usual operators allow six nested evaluations, and not fewer. -/
example :
    let source := "1 || 2 && 3 == 4 + 5 * 6"
    Id.run (evaluateWithin Grouping.interpretation .standard 5 source) = none ∧
      Id.run (evaluateWithin Grouping.interpretation .standard 6 source) =
        some (Grouping.ofSource .standard source) := by
  decide +kernel

end OperatorCalculator
