import OperatorCalculator.Proofs.Evaluation.Traced

/-
The first failure of an evaluation.

An evaluation makes operands and applies operators in a certain order, and any of these
steps may fail.  An operator gives back a failure among its operands unchanged, the left
one first, and the steps on the left come first as well.  So the value of the whole
evaluation is the failure of the earliest step that failed, if any step did.
-/

set_option autoImplicit false

namespace OperatorCalculator

/-! ### Steps and what they give -/

namespace Event

variable {V : Type}

def outcome? : Event V → Option V
  | .literal _ value => some value
  | .applied _ _ _ result => some result
  | .entered _ | .evaluating _ | .rendered _ _ => none

/-- The event tells of the making of an operand or of the application of an operator, with
the value that comes of it. -/
def IsStepOf (interpretation : PureInterpretation V) : Event V → Prop
  | .literal token value => value = Id.run (interpretation.literal token)
  | .applied left operator right result =>
      result = Id.run (interpretation.apply left operator right)
  | .entered _ | .evaluating _ | .rendered _ _ => False

end Event

namespace Grouping

theorem isStepOf_of_mem_notes {V : Type} {interpretation : PureInterpretation V}
    {grouping : Grouping} {event : Event V}
    (member : event ∈ grouping.notes interpretation (.events interpretation .everything)) :
    event.IsStepOf interpretation := by
  induction grouping with
  | operand text =>
      obtain rfl := List.mem_singleton.mp member
      exact rfl
  | application left operator right ihLeft ihRight =>
      rw [notes, List.mem_append, List.mem_append] at member
      rcases member with (inLeft | inRight) | atTop
      · exact ihLeft inLeft
      · exact ihRight inRight
      · obtain rfl := List.mem_singleton.mp atTop
        exact rfl

def value (grouping : Grouping) : Value :=
  Id.run (grouping.fold Value.interpretation)

theorem value_application (left right : Grouping) (operator : String) :
    (Grouping.application left operator right).value =
      left.value.apply operator right.value := rfl

def outcomes : Grouping → List Value
  | .operand text => [Value.ofLiteral text]
  | .application left operator right =>
      left.outcomes ++ right.outcomes ++ [left.value.apply operator right.value]

theorem filterMap_notes (grouping : Grouping) :
    (grouping.notes Value.interpretation
      (.events Value.interpretation .everything)).filterMap Event.outcome? =
      grouping.outcomes := by
  induction grouping with
  | operand text => rfl
  | application left operator right ihLeft ihRight =>
      rw [notes, List.filterMap_append, List.filterMap_append, ihLeft, ihRight]
      rfl

theorem find?_outcomes (grouping : Grouping) :
    grouping.outcomes.find? Value.isFailure =
      if grouping.value.isFailure then some grouping.value else none := by
  induction grouping with
  | operand text => exact List.find?_singleton
  | application left operator right ihLeft ihRight =>
      rw [outcomes, List.find?_append, List.find?_append, ihLeft, ihRight, value_application]
      cases hLeft : left.value.isFailure with
      | true =>
          rw [Value.apply_of_isFailure_left hLeft, hLeft]
          rfl
      | false =>
          cases hRight : right.value.isFailure with
          | true =>
              rw [Value.apply_of_isFailure_right hLeft operator hRight, hRight]
              rfl
          | false => exact List.find?_singleton

end Grouping

/-- An evaluation fails exactly if one of its steps does, and then with the failure of the
earliest such step. -/
theorem evaluate_gives_first_failure (table : PrecedenceTable) (source : String) :
    let value := Id.run (evaluate Value.interpretation table source)
    let run := (evaluate (Value.interpretation.traced .everything) table source).run #[]
    let steps := run.2.toList
    run.1 = value ∧ (∀ step ∈ steps, step.IsStepOf Value.interpretation) ∧
      match (steps.filterMap Event.outcome?).find? Value.isFailure with
      | some failure => value = failure
      | none => value.isFailure = false := by
  intro value run steps
  let grouping := ((Cursor.start table source).grouping table 1).1
  have hRun : run = (value,
      #[] ++ (grouping.notes Value.interpretation
        (.events Value.interpretation .everything)).toArray) :=
    run_evaluate_traced Value.interpretation .everything table source #[]
  have hSteps : steps =
      grouping.notes Value.interpretation (.events Value.interpretation .everything) := by
    simp only [steps, hRun, Array.empty_append]
  have hValue : value = grouping.value :=
    congrArg Id.run (evaluate_eq_fold Value.interpretation table source)
  refine ⟨congrArg Prod.fst hRun, ?_, ?_⟩
  · intro step member
    rw [hSteps] at member
    exact Grouping.isStepOf_of_mem_notes member
  · rw [hSteps, hValue, Grouping.filterMap_notes, Grouping.find?_outcomes]
    cases hFailure : grouping.value.isFailure with
    | true => rfl
    | false => rfl

end OperatorCalculator
