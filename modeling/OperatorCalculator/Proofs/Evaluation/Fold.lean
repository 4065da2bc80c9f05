import OperatorCalculator.Proofs.Evaluation.Binding

/-
Evaluation as the fold of a grouping.

Evaluation builds no tree, yet it does what a fold of one would do, step by step and
in the same order, whatever the steps of the monad are.  The tree is the grouping
that the same evaluation gives when operands stand for themselves, and where
evaluation stops does not depend on the interpretation.
-/

set_option autoImplicit false

namespace OperatorCalculator

variable {m : Type → Type} [Monad m] {V : Type}

/-- The value of a grouping.  Operands on the left come first, and an operator comes
behind both of its operands. -/
def Grouping.fold (interpretation : Interpretation m V) : Grouping → m V
  | .operand text => interpretation.literal text
  | .application left operator right => do
      let leftValue ← left.fold interpretation
      let rightValue ← right.fold interpretation
      interpretation.apply leftValue operator rightValue

namespace Cursor

/-! ### The right operand of an operator -/

/-- The right operand of an operator takes in whatever binds tighter.  On the highest
level nothing does. -/
def rightOperand (interpretation : Interpretation m V) (table : PrecedenceTable)
    (level : Level) (cursor : Cursor) : m (V × cursor.Onward) :=
  match level.tighter? with
  | some tighter => cursor.expression interpretation table tighter.rank
  | none => do
      let value ← interpretation.literal (cursor.operand table).1
      return (value, (cursor.operand table).2)

theorem rightOperand_of_tighter? (interpretation : Interpretation m V)
    {table : PrecedenceTable} {level tighter : Level} (hTighter : level.tighter? = some tighter)
    (cursor : Cursor) :
    cursor.rightOperand interpretation table level =
      cursor.expression interpretation table tighter.rank := by
  rw [rightOperand, hTighter]

theorem rightOperand_of_tighter?_eq_none (interpretation : Interpretation m V)
    {table : PrecedenceTable} {level : Level} (hTighter : level.tighter? = none)
    (cursor : Cursor) :
    cursor.rightOperand interpretation table level = (do
      let value ← interpretation.literal (cursor.operand table).1
      return (value, (cursor.operand table).2)) := by
  rw [rightOperand, hTighter]

theorem climb_eq_rightOperand [LawfulMonad m] (interpretation : Interpretation m V)
    {table : PrecedenceTable} {origin : Cursor} {minimum : Nat} (left : V)
    {cursor : origin.Onward} {level : Level} (hLevel : cursor.val.level? table = some level)
    (hRank : minimum ≤ level.rank) :
    climb interpretation table origin minimum left cursor = (do
      let right ← rightOperand interpretation table level (cursor.val.advance table)
      let combined ← interpretation.apply left cursor.val.current.text right.1
      climb interpretation table origin minimum combined (followOn cursor right.2)) := by
  rw [climb_of_le_rank interpretation left hLevel hRank, rightOperand]
  cases hTighter : level.tighter? with
  | none => simp only [bind_assoc, pure_bind]
  | some tighter => simp only [expression, bind_assoc]

/-! ### Growing a grouping -/

/-- The climb that puts groupings together instead of values. -/
def grow (table : PrecedenceTable) (origin : Cursor) (minimum : Nat) (left : Grouping)
    (cursor : origin.Onward) : Grouping × origin.Onward :=
  Id.run (climb Grouping.interpretation table origin minimum left cursor)

def grouping (table : PrecedenceTable) (minimum : Nat) (cursor : Cursor) :
    Grouping × cursor.Onward :=
  Id.run (cursor.expression Grouping.interpretation table minimum)

def rightGrouping (table : PrecedenceTable) (level : Level) (cursor : Cursor) :
    Grouping × cursor.Onward :=
  Id.run (cursor.rightOperand Grouping.interpretation table level)

variable {table : PrecedenceTable} {origin : Cursor} {minimum : Nat}

theorem grouping_eq_grow (table : PrecedenceTable) (minimum : Nat) (cursor : Cursor) :
    cursor.grouping table minimum =
      grow table cursor minimum (.operand (cursor.operand table).1) (cursor.operand table).2 :=
  rfl

theorem rightGrouping_of_tighter? {level tighter : Level} (hTighter : level.tighter? = some tighter)
    (cursor : Cursor) :
    cursor.rightGrouping table level = cursor.grouping table tighter.rank := by
  rw [rightGrouping, rightOperand_of_tighter? _ hTighter, grouping]

theorem rightGrouping_of_tighter?_eq_none {level : Level} (hTighter : level.tighter? = none)
    (cursor : Cursor) :
    cursor.rightGrouping table level =
      (.operand (cursor.operand table).1, (cursor.operand table).2) := by
  rw [rightGrouping, rightOperand_of_tighter?_eq_none _ hTighter]
  rfl

theorem grow_of_level?_eq_none (left : Grouping) {cursor : origin.Onward}
    (hLevel : cursor.val.level? table = none) :
    grow table origin minimum left cursor = (left, cursor) := by
  rw [grow, climb_of_level?_eq_none _ _ _ hLevel]
  rfl

theorem grow_of_rank_lt (left : Grouping) {cursor : origin.Onward} {level : Level}
    (hLevel : cursor.val.level? table = some level) (hRank : level.rank < minimum) :
    grow table origin minimum left cursor = (left, cursor) := by
  rw [grow, climb_of_rank_lt _ _ hLevel hRank]
  rfl

theorem grow_of_le_rank (left : Grouping) {cursor : origin.Onward} {level : Level}
    (hLevel : cursor.val.level? table = some level) (hRank : minimum ≤ level.rank) :
    grow table origin minimum left cursor =
      grow table origin minimum
        (.application left cursor.val.current.text
          ((cursor.val.advance table).rightGrouping table level).1)
        (followOn cursor ((cursor.val.advance table).rightGrouping table level).2) := by
  rw [grow, climb_eq_rightOperand _ _ hLevel hRank]
  rfl

/-! ### Where what has grown ends -/

section MovesOn

variable {motive : Cursor → Prop}
  (hAdvance : ∀ cursor, motive cursor → motive (cursor.advance table))

include hAdvance

theorem holds_behind_grow (left : Grouping) {cursor : origin.Onward}
    (hCursor : motive cursor.val) : motive (grow table origin minimum left cursor).2.val := by
  induction origin, minimum, left, cursor using Cursor.climb.induct table with
  | case1 origin minimum left cursor hLevel =>
      rw [grow_of_level?_eq_none left hLevel]
      exact hCursor
  | case2 origin minimum left cursor level hLevel hRank start text behind hOperand ihRight
      ihRest =>
      obtain rfl : (start.operand table).2 = behind := congrArg Prod.snd hOperand
      have operand : motive (start.operand table).2.val :=
        holds_behind_operand hAdvance (hAdvance start (hAdvance cursor.val hCursor))
      have right : motive (start.rightGrouping table level).2.val := by
        cases hTighter : level.tighter? with
        | none =>
            rw [rightGrouping_of_tighter?_eq_none hTighter]
            exact operand
        | some tighter =>
            rw [rightGrouping_of_tighter? hTighter, grouping_eq_grow]
            exact ihRight _ tighter operand
      rw [grow_of_le_rank left hLevel hRank]
      exact ihRest _ _ right
  | case3 origin minimum left cursor level hLevel hRank =>
      rw [grow_of_rank_lt left hLevel (Nat.lt_of_not_le hRank)]
      exact hCursor

/-- An expression is read by moving on, at least once. -/
theorem holds_behind_grouping (minimum : Nat) {cursor : Cursor}
    (hNext : motive (cursor.advance table)) : motive (cursor.grouping table minimum).2.val := by
  rw [grouping_eq_grow]
  exact holds_behind_grow hAdvance _ (holds_behind_operand hAdvance hNext)

end MovesOn

/-! ### The value of what has grown -/

theorem rightOperand_eq_fold (interpretation : Interpretation m V) {level : Level}
    {cursor : Cursor}
    (hTighter : ∀ tighter, level.tighter? = some tighter →
      cursor.expression interpretation table tighter.rank = (do
        let value ← (cursor.grouping table tighter.rank).1.fold interpretation
        return (value, (cursor.grouping table tighter.rank).2))) :
    cursor.rightOperand interpretation table level = (do
      let value ← (cursor.rightGrouping table level).1.fold interpretation
      return (value, (cursor.rightGrouping table level).2)) := by
  cases hNext : level.tighter? with
  | none =>
      rw [rightGrouping_of_tighter?_eq_none hNext,
        rightOperand_of_tighter?_eq_none interpretation hNext]
      rfl
  | some tighter =>
      rw [rightGrouping_of_tighter? hNext, rightOperand_of_tighter? interpretation hNext]
      exact hTighter tighter hNext

section Fold

variable [LawfulMonad m] (interpretation : Interpretation m V)

theorem fold_bind_climb (table : PrecedenceTable) (origin : Cursor) (minimum : Nat)
    (left : Grouping) (cursor : origin.Onward) :
    (do
      let value ← left.fold interpretation
      climb interpretation table origin minimum value cursor) = (do
      let value ← (grow table origin minimum left cursor).1.fold interpretation
      return (value, (grow table origin minimum left cursor).2)) := by
  induction origin, minimum, left, cursor using Cursor.climb.induct table with
  | case1 origin minimum left cursor hLevel =>
      simp only [climb_of_level?_eq_none interpretation _ _ hLevel,
        grow_of_level?_eq_none left hLevel]
  | case2 origin minimum left cursor level hLevel hRank start text behind hOperand ihRight
      ihRest =>
      obtain rfl : (start.operand table).1 = text := congrArg Prod.fst hOperand
      obtain rfl : (start.operand table).2 = behind := congrArg Prod.snd hOperand
      have right : start.rightOperand interpretation table level = (do
          let value ← (start.rightGrouping table level).1.fold interpretation
          return (value, (start.rightGrouping table level).2)) :=
        rightOperand_eq_fold interpretation
          (fun tighter _ => ihRight (.operand (start.operand table).1) tighter)
      have rest := ihRest (start.rightGrouping table level).2
        (.application left cursor.val.current.text (start.rightGrouping table level).1)
      rw [grow_of_le_rank left hLevel hRank]
      simp only [climb_eq_rightOperand interpretation _ hLevel hRank]
      refine Eq.trans ?_ rest
      rw [right]
      simp only [Grouping.fold, bind_assoc, pure_bind]
  | case3 origin minimum left cursor level hLevel hRank =>
      have lower : level.rank < minimum := Nat.lt_of_not_le hRank
      simp only [climb_of_rank_lt interpretation _ hLevel lower,
        grow_of_rank_lt left hLevel lower]

/-- An evaluation takes the steps of the fold of a grouping, and stops where that ends. -/
theorem expression_eq_fold (table : PrecedenceTable) (minimum : Nat) (cursor : Cursor) :
    cursor.expression interpretation table minimum = (do
      let value ← (cursor.grouping table minimum).1.fold interpretation
      return (value, (cursor.grouping table minimum).2)) :=
  fold_bind_climb interpretation table cursor minimum (.operand (cursor.operand table).1)
    (cursor.operand table).2

end Fold
end Cursor

theorem evaluate_eq_fold [LawfulMonad m] (interpretation : Interpretation m V)
    (table : PrecedenceTable) (source : String) :
    evaluate interpretation table source =
      (((Cursor.start table source).grouping table 1).1.fold interpretation) := by
  simp only [evaluate, Cursor.expression_eq_fold, bind_assoc, pure_bind, bind_pure]

end OperatorCalculator
