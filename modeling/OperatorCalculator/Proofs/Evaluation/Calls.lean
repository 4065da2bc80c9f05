import OperatorCalculator.Proofs.Evaluation.Expression

/-
The steps of an evaluation in the order they happen.

An evaluation that takes notes leaves behind the notes of the fold of its grouping:
operands on the left first, and every operator behind both of its operands.  So operands
are made once each and from left to right, and the value is the one that an evaluation
without notes gives.
-/

set_option autoImplicit false

namespace OperatorCalculator

variable {V Note : Type}

/-! ### Notes -/

/-- What is noted of an operand that is made, and of an operator that is applied. -/
structure Notebook (V Note : Type) where
  literal : String → List Note
  apply : V → String → V → List Note

def Grouping.notes (interpretation : PureInterpretation V) (notebook : Notebook V Note) :
    Grouping → List Note
  | .operand text => notebook.literal text
  | .application left operator right =>
      left.notes interpretation notebook ++ right.notes interpretation notebook ++
        notebook.apply (Id.run (left.fold interpretation)) operator
          (Id.run (right.fold interpretation))

/-- Each step gives the same value as without notes, and adds its own notes. -/
structure Interpretation.Annotates (interpretation : PureInterpretation V)
    (notebook : Notebook V Note) (annotated : Interpretation (StateM (Array Note)) V) :
    Prop where
  literal : ∀ text before,
    (annotated.literal text).run before =
      pure (Id.run (interpretation.literal text), before ++ (notebook.literal text).toArray)
  apply : ∀ left operator right before,
    (annotated.apply left operator right).run before =
      pure (Id.run (interpretation.apply left operator right),
        before ++ (notebook.apply left operator right).toArray)

variable {interpretation : PureInterpretation V} {notebook : Notebook V Note}
  {annotated : Interpretation (StateM (Array Note)) V}

theorem Interpretation.Annotates.run_fold
    (hAnnotates : interpretation.Annotates notebook annotated) (grouping : Grouping)
    (before : Array Note) :
    (grouping.fold annotated).run before =
      pure (Id.run (grouping.fold interpretation),
        before ++ (grouping.notes interpretation notebook).toArray) := by
  induction grouping generalizing before with
  | operand text => exact hAnnotates.literal text before
  | application left operator right ihLeft ihRight =>
      rw [Grouping.fold, StateT.run_bind, ihLeft, pure_bind, StateT.run_bind, ihRight,
        pure_bind, hAnnotates.apply, Grouping.notes]
      simp only [Array.append_assoc, List.append_toArray]
      rfl

theorem Interpretation.Annotates.run_evaluate
    (hAnnotates : interpretation.Annotates notebook annotated) (table : PrecedenceTable)
    (source : String) (before : Array Note) :
    (evaluate annotated table source).run before =
      pure (Id.run (evaluate interpretation table source),
        before ++
          (((Cursor.start table source).grouping table 1).1.notes interpretation
            notebook).toArray) := by
  rw [evaluate_eq_fold, evaluate_eq_fold, hAnnotates.run_fold]

/-! ### Calls -/

def Call.literalText? : Call → Option String
  | .literal text => some text
  | .apply _ => none

def Notebook.calls (V : Type) : Notebook V Call where
  literal text := [.literal text]
  apply _ operator _ := [.apply operator]

theorem annotates_logged (interpretation : PureInterpretation V) :
    interpretation.Annotates (Notebook.calls V) interpretation.logged := by
  constructor
  · intro text before
    show (_, before.push (.literal text)) = _
    rw [Array.push_eq_append]
    rfl
  · intro left operator right before
    show (_, before.push (.apply operator)) = _
    rw [Array.push_eq_append]
    rfl

namespace Grouping

def calls : Grouping → List Call
  | .operand text => [.literal text]
  | .application left operator right => left.calls ++ right.calls ++ [.apply operator]

theorem notes_eq_calls (interpretation : PureInterpretation V) (grouping : Grouping) :
    grouping.notes interpretation (Notebook.calls V) = grouping.calls := by
  induction grouping with
  | operand text => rfl
  | application left operator right ihLeft ihRight =>
      rw [notes, calls, ihLeft, ihRight]
      rfl

theorem filterMap_calls (grouping : Grouping) :
    grouping.calls.filterMap Call.literalText? = grouping.flatten.operands := by
  induction grouping with
  | operand text => rfl
  | application left operator right ihLeft ihRight =>
      rw [calls, List.filterMap_append, List.filterMap_append, ihLeft, ihRight]
      simp [flatten, Alternation.operands, Call.literalText?]

end Grouping

theorem run_evaluate_logged (interpretation : PureInterpretation V)
    (table : PrecedenceTable) (source : String) :
    (evaluate interpretation.logged table source).run #[] =
      pure (Id.run (evaluate interpretation table source),
        ((Cursor.start table source).grouping table 1).1.calls.toArray) := by
  rw [(annotates_logged interpretation).run_evaluate, Grouping.notes_eq_calls,
    Array.empty_append]

end OperatorCalculator
