import OperatorCalculator.Proofs.Evaluation.Expression

/-
Descending through every level.

An expression can also be evaluated by counting a rank down: from the rank of the operator in
view, one by one, to the least that is asked for, and at each rank the operators that have it
are applied.  Most of these turns find no operator.  The climb goes straight to the rank of the
next operator in view, and does the same steps, since behind a run of operators of one rank
there is none of this rank or above.
-/

set_option autoImplicit false

namespace OperatorCalculator

variable {m : Type → Type} [Monad m] {V : Type}

namespace Cursor

/-! ### Counting ranks down -/

/-- The rank of the operator in view, or zero if there is none. -/
def rankInView (table : PrecedenceTable) (cursor : Cursor) : Nat :=
  (cursor.level? table).elim 0 Level.rank

mutual

/-- Evaluates an operand and then descends from the rank in view. -/
def descent (interpretation : Interpretation m V) (table : PrecedenceTable) (minimum : Level)
    (cursor : Cursor) : m (V × cursor.Onward) := do
  let first ← interpretation.literal (cursor.operand table).1
  descend interpretation table cursor minimum ((cursor.operand table).2.val.rankInView table)
    first (cursor.operand table).2
termination_by (cursor.pending, 2, 0)

/-- Applies the operators of a rank, then those of the rank below, and so on. -/
def descend (interpretation : Interpretation m V) (table : PrecedenceTable) (origin : Cursor)
    (minimum : Level) (rank : Nat) (left : V) (cursor : origin.Onward) : m (V × origin.Onward) :=
  if _hRank : minimum.rank ≤ rank then do
    let (value, behind) ← applyRun interpretation table origin rank left cursor
    descend interpretation table origin minimum (rank - 1) value behind
  else
    pure (left, cursor)
termination_by (origin.pending, 1, rank)
decreasing_by
  · exact Prod.Lex.right _ (Prod.Lex.left _ _ Nat.zero_lt_one)
  · have positive := minimum.positive
    exact Prod.Lex.right _ (Prod.Lex.right _ (by omega))

/-- Applies operators for as long as they have one rank.  What binds tighter belongs to the
operand on the right, which is a single one on the highest level. -/
def applyRun (interpretation : Interpretation m V) (table : PrecedenceTable) (origin : Cursor)
    (rank : Nat) (left : V) (cursor : origin.Onward) : m (V × origin.Onward) :=
  match _hLevel : cursor.val.level? table with
  | none => pure (left, cursor)
  | some level =>
      if level.rank = rank then do
        let start := cursor.val.advance table
        let (right, behindRight) ←
          (match level.tighter? with
            | some tighter => descent interpretation table tighter start
            | none => do
                let value ← interpretation.literal (start.operand table).1
                return (value, (start.operand table).2))
        let combined ← interpretation.apply left cursor.val.current.text right
        applyRun interpretation table origin rank combined (followOn cursor behindRight)
      else
        pure (left, cursor)
termination_by (origin.pending, 0, cursor.val.pending)
decreasing_by
  all_goals have moved := pending_advance_lt table (isEnd_eq_false_of_level? _hLevel)
  · exact Prod.Lex.left _ _ (Nat.lt_of_lt_of_le moved cursor.property)
  · exact Prod.Lex.right _ (Prod.Lex.right _ (Nat.lt_of_le_of_lt behindRight.property moved))

end

variable {interpretation : Interpretation m V} {table : PrecedenceTable} {origin : Cursor}

theorem descend_of_lt {minimum : Level} {rank : Nat} (hRank : rank < minimum.rank) (left : V)
    (cursor : origin.Onward) :
    descend interpretation table origin minimum rank left cursor = pure (left, cursor) := by
  rw [descend]
  exact dif_neg (Nat.not_le.mpr hRank)

theorem descend_of_le {minimum : Level} {rank : Nat} (hRank : minimum.rank ≤ rank) (left : V)
    (cursor : origin.Onward) :
    descend interpretation table origin minimum rank left cursor = (do
      let run ← applyRun interpretation table origin rank left cursor
      descend interpretation table origin minimum (rank - 1) run.1 run.2) := by
  rw [descend]
  exact dif_pos hRank

/-! ### Turns without an operator -/

theorem rankInView_of_level? {cursor : Cursor} {level : Level}
    (hLevel : cursor.level? table = some level) : cursor.rankInView table = level.rank := by
  rw [rankInView, hLevel, Option.elim_some]

theorem rankInView_of_level?_eq_none {cursor : Cursor} (hLevel : cursor.level? table = none) :
    cursor.rankInView table = 0 := by
  rw [rankInView, hLevel, Option.elim_none]

theorem applyRun_of_rankInView_lt {rank : Nat} (left : V) {cursor : origin.Onward}
    (hRank : cursor.val.rankInView table < rank) :
    applyRun interpretation table origin rank left cursor = pure (left, cursor) := by
  rw [applyRun]
  split
  · rfl
  · rename_i level hLevel
    rw [rankInView_of_level? hLevel] at hRank
    exact if_neg (Nat.ne_of_lt hRank)

/-- The turns above the rank in view do nothing. -/
theorem descend_rankInView [LawfulMonad m] (minimum : Level) {rank : Nat} (left : V)
    {cursor : origin.Onward} (hView : cursor.val.rankInView table ≤ rank) :
    descend interpretation table origin minimum rank left cursor =
      descend interpretation table origin minimum (cursor.val.rankInView table) left cursor := by
  induction hView with
  | refl => rfl
  | @step rank hView ih =>
      rw [← ih]
      by_cases hRank : minimum.rank ≤ rank + 1
      · have nothing : applyRun interpretation table origin (rank + 1) left cursor =
            pure (left, cursor) :=
          applyRun_of_rankInView_lt left (Nat.lt_succ_of_le hView)
        rw [descend_of_le hRank, nothing, pure_bind, Nat.add_sub_cancel]
      · rw [descend_of_lt (by omega), descend_of_lt (by omega)]

/-! ### Turns with an operator -/

/-- What binds tighter was taken in by the operand on the right. -/
theorem rankInView_rightGrouping (level : Level) (cursor : Cursor) :
    ((cursor.advance table).rightGrouping table level).2.val.rankInView table ≤ level.rank := by
  have scanned := isScanned_advance table cursor
  have groups : Groups table (level.rank + 1) ((cursor.advance table).upcoming table)
      ((cursor.advance table).rightGrouping table level).1
      ((cursor.advance table).rightGrouping table level).2.val :=
    groups_rightGrouping scanned (fun tighter _ => groups_grouping scanned tighter.rank)
  cases hLevel : ((cursor.advance table).rightGrouping table level).2.val.level? table with
  | none =>
      rw [rankInView_of_level?_eq_none hLevel]
      exact Nat.zero_le _
  | some behind =>
      rw [rankInView_of_level? hLevel]
      exact Nat.le_of_lt_succ (stopsAt_upcoming_iff.mp groups.stops behind hLevel)

theorem applyRun_eq_rightOperand [LawfulMonad m] (left : V) {cursor : origin.Onward}
    {level : Level} (hLevel : cursor.val.level? table = some level)
    (hDescent : ∀ tighter : Level,
      (cursor.val.advance table).descent interpretation table tighter =
        (cursor.val.advance table).expression interpretation table tighter.rank) :
    applyRun interpretation table origin level.rank left cursor = (do
      let right ← (cursor.val.advance table).rightOperand interpretation table level
      let combined ← interpretation.apply left cursor.val.current.text right.1
      applyRun interpretation table origin level.rank combined (followOn cursor right.2)) := by
  rw [applyRun]
  split
  · rename_i hNone
    rw [hLevel] at hNone
    contradiction
  · rename_i found hFound
    obtain rfl : found = level := Option.some.inj (hFound.symm.trans hLevel)
    rw [if_pos rfl]
    cases hTighter : found.tighter? with
    | none => simp only [rightOperand_of_tighter?_eq_none _ hTighter, bind_assoc, pure_bind]
    | some tighter => simp only [rightOperand_of_tighter? _ hTighter, hDescent]

/-! ### The same steps -/

theorem descend_eq_climb [LawfulMonad m] {minimum : Level}
    (hDescent : ∀ (start : Cursor) (tighter : Level), start.pending < origin.pending →
      start.descent interpretation table tighter =
        start.expression interpretation table tighter.rank)
    (rank : Nat) (left : V) (cursor : origin.Onward)
    (hView : cursor.val.rankInView table ≤ rank) :
    descend interpretation table origin minimum rank left cursor =
      climb interpretation table origin minimum.rank left cursor := by
  induction hPending : cursor.val.pending using Nat.strongRecOn
    generalizing rank left cursor with
  | _ pending ih =>
    rw [descend_rankInView minimum left hView]
    cases hLevel : cursor.val.level? table with
    | none =>
        have positive := minimum.positive
        rw [climb_of_level?_eq_none _ _ _ hLevel, rankInView_of_level?_eq_none hLevel,
          descend_of_lt (by omega)]
    | some level =>
        rw [rankInView_of_level? hLevel]
        by_cases hRank : minimum.rank ≤ level.rank
        · have moved := pending_advance_lt table (isEnd_eq_false_of_level? hLevel)
          have nearer := Nat.lt_of_lt_of_le moved cursor.property
          rw [descend_of_le hRank, climb_eq_rightOperand _ _ hLevel hRank,
            applyRun_eq_rightOperand left hLevel (fun tighter => hDescent _ tighter nearer),
            rightOperand_eq_fold _ (fun tighter _ => expression_eq_fold _ table tighter.rank _)]
          simp only [bind_assoc, pure_bind]
          congr 1
          funext right
          congr 1
          funext combined
          -- The rest of the run and the turns behind it are again a descent.
          rw [← descend_of_le hRank]
          let behindRight := ((cursor.val.advance table).rightGrouping table level).2
          have behindNearer : (followOn cursor behindRight).val.pending < pending :=
            hPending ▸ Nat.lt_of_le_of_lt behindRight.property moved
          exact ih _ behindNearer level.rank combined (followOn cursor behindRight)
            (rankInView_rightGrouping level cursor.val) rfl
        · have lower : level.rank < minimum.rank := Nat.lt_of_not_le hRank
          rw [descend_of_lt lower, climb_of_rank_lt _ _ hLevel lower]

end Cursor

/-- Counting ranks down from the one in view takes the same steps as the climb, gives the same
value and ends at the same token. -/
theorem descent_is_climb [LawfulMonad m] (interpretation : Interpretation m V)
    (table : PrecedenceTable) (minimum : Level) (cursor : Cursor) :
    cursor.descent interpretation table minimum =
      cursor.expression interpretation table minimum.rank := by
  induction hPending : cursor.pending using Nat.strongRecOn
    generalizing minimum cursor with
  | _ pending ih =>
    have hDescent : ∀ (start : Cursor) (tighter : Level), start.pending < cursor.pending →
        start.descent interpretation table tighter =
          start.expression interpretation table tighter.rank := by
      intro start tighter nearer
      exact ih start.pending (hPending ▸ nearer) tighter start rfl
    rw [Cursor.descent, Cursor.expression]
    congr 1
    funext first
    exact Cursor.descend_eq_climb hDescent _ first _ (Nat.le_refl _)

/-- From the highest rank there is down to the one that ends the turns. -/
theorem descent_is_climb_from_highest_rank :
    let table := PrecedenceTable.standard.enter "^" 4294967295
    let cursor := Cursor.start table "7 ^ -2 * 3 + 4"
    let minimum : Level := ⟨5, by decide, by decide⟩
    let result :=
      Id.run ((cursor.descent Grouping.interpretation.logged table minimum).run #[])
    result.1.1 =
        .application (.application (.operand "7") "^" (.operand "-2")) "*" (.operand "3") ∧
      result.1.2.val.current.text = "+" ∧
      result.2 =
        #[.literal "7", .literal "-2", .apply "^", .literal "3", .apply "*"] := by
  intro table cursor minimum
  rw [descent_is_climb]
  decide +kernel

end OperatorCalculator
