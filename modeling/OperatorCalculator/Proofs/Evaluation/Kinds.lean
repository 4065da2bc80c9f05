import OperatorCalculator.Proofs.Evaluation.FirstFailure
import OperatorCalculator.Proofs.Evaluation.PostOrder
import OperatorCalculator.Proofs.Value.Kind

/-
The kind of an expression.

The kinds of the literals of an expression and the table of operators give every part of
its grouping a kind, or none.  If some part has none, the expression fails.  If all parts
have one, its value is of the kind of the whole, or it fails for want of a result, and it
cannot even do that where no operator on the way may fail.
-/

set_option autoImplicit false

namespace OperatorCalculator
namespace Grouping

def kind? : Grouping → Option Kind
  | .operand text => (Value.ofLiteral text).kind?
  | .application left operator right => do
      let leftKind ← left.kind?
      let rightKind ← right.kind?
      let signature ← Signature.find? leftKind operator rightKind
      return signature.result

/-- The operator on top stands between kinds of operands that it may fail for. -/
def MayFail : Grouping → Prop
  | .operand _ => False
  | .application left operator right =>
      ∃ leftKind rightKind signature, left.kind? = some leftKind ∧
        right.kind? = some rightKind ∧
        Signature.find? leftKind operator rightKind = some signature ∧ signature.mayFail = true

theorem kind?_application_of_kinds {left right : Grouping} {leftKind rightKind : Kind}
    (hLeft : left.kind? = some leftKind) (hRight : right.kind? = some rightKind)
    (operator : String) :
    (Grouping.application left operator right).kind? =
      (Signature.find? leftKind operator rightKind).map Signature.result := by
  rw [kind?, hLeft, hRight]
  change (Signature.find? leftKind operator rightKind).bind (fun signature =>
    some signature.result) = _
  cases Signature.find? leftKind operator rightKind with
  | none => rfl
  | some signature => rfl

theorem exists_kinds_of_kind?_application {left right : Grouping} {operator : String}
    {kind : Kind} (hKind : (Grouping.application left operator right).kind? = some kind) :
    ∃ leftKind rightKind signature, left.kind? = some leftKind ∧
      right.kind? = some rightKind ∧
      Signature.find? leftKind operator rightKind = some signature ∧ signature.result = kind := by
  cases hLeft : left.kind? with
  | none => simp [kind?, hLeft] at hKind
  | some leftKind =>
      cases hRight : right.kind? with
      | none => simp [kind?, hLeft, hRight] at hKind
      | some rightKind =>
          rw [kind?_application_of_kinds hLeft hRight, Option.map_eq_some_iff] at hKind
          rcases hKind with ⟨signature, hSignature, hResult⟩
          exact ⟨leftKind, rightKind, signature, rfl, rfl, hSignature, hResult⟩

theorem kind?_ne_none_of_mem_postOrder {grouping part : Grouping}
    (hKind : grouping.kind? ≠ none) (member : part ∈ grouping.postOrder) :
    part.kind? ≠ none := by
  induction grouping with
  | operand text =>
      rw [List.mem_singleton.mp member]
      exact hKind
  | application left operator right ihLeft ihRight =>
      rcases Option.ne_none_iff_exists'.mp hKind with ⟨kind, hKind⟩
      rcases exists_kinds_of_kind?_application hKind with
        ⟨leftKind, rightKind, _, hLeft, hRight, _, _⟩
      simp only [postOrder, List.mem_append, List.mem_singleton] at member
      rcases member with (inLeft | inRight) | rfl
      · exact ihLeft (by simp [hLeft]) inLeft
      · exact ihRight (by simp [hRight]) inRight
      · simp [hKind]

theorem mem_postOrder_self (grouping : Grouping) : grouping ∈ grouping.postOrder := by
  cases grouping with
  | operand text => exact List.mem_cons_self
  | application left operator right => exact List.mem_append_right _ List.mem_cons_self

/-! ### The kind of the value -/

theorem kind?_of_kind?_value {grouping : Grouping} {kind : Kind}
    (hValue : grouping.value.kind? = some kind) : grouping.kind? = some kind := by
  induction grouping generalizing kind with
  | operand text => exact hValue
  | application left operator right ihLeft ihRight =>
      rw [value_application] at hValue
      rcases Value.exists_signature_of_kind?_apply hValue with
        ⟨leftKind, rightKind, signature, hLeft, hRight, hSignature, rfl⟩
      rw [kind?_application_of_kinds (ihLeft hLeft) (ihRight hRight), hSignature]
      rfl

/-- Parts that have kinds give a value of the kind of the whole, unless an operator on the
way has no result. -/
theorem kind?_value_of_kind? {grouping : Grouping} {kind : Kind}
    (hKind : grouping.kind? = some kind) :
    grouping.value.kind? = some kind ∨
      (∃ part ∈ grouping.postOrder, part.MayFail) ∧
        ∃ cause, grouping.value = .failure cause ∧ cause.IsArithmetic := by
  induction grouping generalizing kind with
  | operand text => exact Or.inl hKind
  | application left operator right ihLeft ihRight =>
      rcases exists_kinds_of_kind?_application hKind with
        ⟨leftKind, rightKind, signature, hLeft, hRight, hSignature, rfl⟩
      rw [value_application]
      rcases ihLeft hLeft with leftFits | ⟨⟨part, inLeft, mayFail⟩, cause, hCause, arithmetic⟩
      · rcases ihRight hRight with
          rightFits | ⟨⟨part, inRight, mayFail⟩, cause, hCause, arithmetic⟩
        · have answers := Value.answers_apply leftFits rightFits operator
          rw [hSignature] at answers
          rcases answers with fits | ⟨mayFail, failure⟩
          · exact Or.inl fits
          · refine Or.inr ⟨⟨_, mem_postOrder_self _, ?_⟩, failure⟩
            exact ⟨leftKind, rightKind, signature, hLeft, hRight, hSignature, mayFail⟩
        · have noFailure := Value.isFailure_eq_false_of_kind? leftFits
          have failed : right.value.isFailure = true := by
            rw [hCause]
            rfl
          rw [Value.apply_of_isFailure_right noFailure operator failed]
          refine Or.inr ⟨⟨part, ?_, mayFail⟩, cause, hCause, arithmetic⟩
          exact List.mem_append_left _ (List.mem_append_right _ inRight)
      · have failed : left.value.isFailure = true := by
          rw [hCause]
          rfl
        rw [Value.apply_of_isFailure_left failed]
        refine Or.inr ⟨⟨part, ?_, mayFail⟩, cause, hCause, arithmetic⟩
        exact List.mem_append_left _ (List.mem_append_left _ inLeft)

end Grouping

/-- If an operand or an operator of an expression has no kind, the expression fails.  If all
have one, the value is of the kind of the whole or a failure for want of a result, and it is
no failure where no operator on the way may fail. -/
theorem evaluation_has_kind_of_grouping (table : PrecedenceTable) (source : String) :
    let grouping := Grouping.ofSource table source
    let value := Id.run (evaluate Value.interpretation table source)
    ((evaluate Value.interpretation.logged table source).run #[]).2.toList.filterMap
        Call.literalText? = grouping.flatten.operands ∧
      ((∃ part ∈ grouping.postOrder, part.kind? = none) → value.isFailure = true) ∧
      ((∀ part ∈ grouping.postOrder, part.kind? ≠ none) →
        ∃ kind, grouping.kind? = some kind ∧
          (value.kind? = some kind ∨
            ∃ cause, value = .failure cause ∧ cause.IsArithmetic ∧
              ∃ opening ∈
                  ["division by zero: ", "integer overflow: ", "invalid repeat count: "],
                ∃ details, cause.message = opening ++ details) ∧
          ((∀ part ∈ grouping.postOrder, ¬part.MayFail) → value.kind? = some kind)) := by
  intro grouping value
  have hValue : value = grouping.value :=
    congrArg Id.run (evaluate_eq_fold Value.interpretation table source)
  rw [hValue]
  refine ⟨?_, ?_, ?_⟩
  · rw [run_evaluate_logged]
    exact Grouping.filterMap_calls grouping
  · rintro ⟨part, member, noKind⟩
    cases hKind : grouping.value.kind? with
    | none => exact Value.kind?_eq_none_iff.mp hKind
    | some kind =>
        have whole : grouping.kind? ≠ none := by
          simp [Grouping.kind?_of_kind?_value hKind]
        exact absurd noKind (Grouping.kind?_ne_none_of_mem_postOrder whole member)
  · intro allKinds
    have whole := allKinds grouping grouping.mem_postOrder_self
    rcases Option.ne_none_iff_exists'.mp whole with ⟨kind, hKind⟩
    have fits := Grouping.kind?_value_of_kind? hKind
    refine ⟨kind, hKind, ?_, ?_⟩
    · rcases fits with fits | ⟨_, cause, hCause, arithmetic⟩
      · exact Or.inl fits
      · exact Or.inr ⟨cause, hCause, arithmetic, arithmetic.message⟩
    · intro noneMayFail
      rcases fits with fits | ⟨⟨part, member, mayFail⟩, _⟩
      · exact fits
      · exact absurd mayFail (noneMayFail part member)

example : (Grouping.ofSource .standard "\"a\" * 2 == \"b\" || 1 < 2").kind? = some .boolean := by
  decide +kernel

end OperatorCalculator
