import OperatorCalculator.Value.Operation

/-
Kinds of values.

Whole numbers, truth values and texts are the three kinds; a failure has none.  A table
lists which operators stand between operands of which kinds, what kind their result has,
and whether it may still fail for want of a value.  Operators give what their row says,
and what no row lists is an illegal operation.
-/

set_option autoImplicit false

namespace OperatorCalculator

inductive Kind where
  | integer | boolean | text
  deriving DecidableEq

def Value.kind? : Value → Option Kind
  | .integer _ => some .integer
  | .boolean _ => some .boolean
  | .text _ => some .text
  | .failure _ => none

theorem Value.kind?_eq_none_iff {value : Value} :
    value.kind? = none ↔ value.isFailure = true := by
  cases value with
  | integer number => simp [kind?, isFailure]
  | boolean truth => simp [kind?, isFailure]
  | text characters => simp [kind?, isFailure]
  | failure cause => simp [kind?, isFailure]

theorem Value.isFailure_eq_false_of_kind? {value : Value} {kind : Kind}
    (hKind : value.kind? = some kind) : value.isFailure = false := by
  cases hFailure : value.isFailure with
  | false => rfl
  | true =>
      rw [kind?_eq_none_iff.mpr hFailure] at hKind
      contradiction

/-! ### The table of operators -/

/-- Operators between operands of certain kinds, and the kind of their result. -/
structure Signature where
  left : Kind
  operators : List String
  right : Kind
  result : Kind
  /-- Not all operands of these kinds have a result. -/
  mayFail : Bool
  deriving DecidableEq

namespace Signature

def all : List Signature :=
  [⟨.integer, ["+", "-", "*", "/", "%"], .integer, .integer, true⟩,
   ⟨.integer, ["==", "!=", "<", "<=", ">", ">="], .integer, .boolean, false⟩,
   ⟨.integer, ["*"], .text, .text, true⟩,
   ⟨.boolean, ["&&", "||"], .boolean, .boolean, false⟩,
   ⟨.boolean, ["==", "!="], .boolean, .boolean, false⟩,
   ⟨.text, ["+"], .text, .text, false⟩,
   ⟨.text, ["==", "!=", "<", "<=", ">", ">="], .text, .boolean, false⟩,
   ⟨.text, ["*"], .integer, .text, true⟩]

def find? (left : Kind) (operator : String) (right : Kind) : Option Signature :=
  all.find? fun signature =>
    signature.left == left && signature.right == right &&
      signature.operators.contains operator

end Signature

/-! ### Symbols of operations -/

def Operation.symbol : Operation → String
  | .compare .equal => "=="
  | .compare .notEqual => "!="
  | .compare .less => "<"
  | .compare .lessOrEqual => "<="
  | .compare .greater => ">"
  | .compare .greaterOrEqual => ">="
  | .compute .add => "+"
  | .compute .subtract => "-"
  | .compute .multiply => "*"
  | .compute .divide => "/"
  | .compute .remainder => "%"
  | .connect .and => "&&"
  | .connect .or => "||"

theorem Operation.eq_symbol_of_ofSymbol? {operator : String} {operation : Operation}
    (hOperation : ofSymbol? operator = some operation) : operator = operation.symbol := by
  unfold ofSymbol? at hOperation
  split at hOperation
  case h_14 => contradiction
  all_goals
    cases hOperation
    rfl

theorem Operation.ofSymbol?_symbol (operation : Operation) :
    ofSymbol? operation.symbol = some operation := by
  cases operation with
  | compare test =>
      cases test
      all_goals rfl
  | compute operation =>
      cases operation
      all_goals rfl
  | connect connective =>
      cases connective
      all_goals rfl

theorem Signature.isSome_ofSymbol? :
    ∀ signature ∈ all, ∀ operator ∈ signature.operators,
      (Operation.ofSymbol? operator).isSome = true := by
  decide

theorem Signature.find?_of_ofSymbol?_eq_none {operator : String}
    (hUnknown : Operation.ofSymbol? operator = none) (left right : Kind) :
    find? left operator right = none := by
  cases hFind : find? left operator right with
  | none => rfl
  | some signature =>
      have listed := List.find?_some hFind
      simp only [Bool.and_eq_true, List.contains_iff_mem] at listed
      have known := isSome_ofSymbol? signature (List.mem_of_find?_eq_some hFind) operator listed.2
      rw [hUnknown] at known
      contradiction

/-! ### What comes of an operator -/

/-- A failure for want of a result, not of a meaning. -/
inductive Failure.IsArithmetic : Failure → Prop
  | divisionByZero (left operator right : String) :
      IsArithmetic (.divisionByZero left operator right)
  | integerOverflow (left operator right : String) :
      IsArithmetic (.integerOverflow left operator right)
  | invalidRepeatCount (left right : String) : IsArithmetic (.invalidRepeatCount left right)

theorem Failure.IsArithmetic.message {cause : Failure} (hCause : cause.IsArithmetic) :
    ∃ opening ∈ ["division by zero: ", "integer overflow: ", "invalid repeat count: "],
      ∃ details, cause.message = opening ++ details := by
  cases hCause with
  | divisionByZero left operator right =>
      exact ⟨"division by zero: ", by simp, sketch left operator right, rfl⟩
  | integerOverflow left operator right =>
      exact ⟨"integer overflow: ", by simp, sketch left operator right, rfl⟩
  | invalidRepeatCount left right =>
      exact ⟨"invalid repeat count: ", by simp, sketch left "*" right, rfl⟩

namespace Value

def Fits (kind : Kind) (mayFail : Bool) (value : Value) : Prop :=
  value.kind? = some kind ∨
    mayFail = true ∧ ∃ cause, value = .failure cause ∧ cause.IsArithmetic

/-- A value is what a signature promises; without one the operation is illegal. -/
def Answers (left : Value) (operator : String) (right : Value) (value : Value) :
    Option Signature → Prop
  | some signature => value.Fits signature.result signature.mayFail
  | none => value = illegal left operator right

theorem answers_of_ofSymbol?_eq_none {left right value : Value} {operator : String}
    (hUnknown : Operation.ofSymbol? operator = none) (hValue : value = illegal left operator right)
    (leftKind rightKind : Kind) :
    Answers left operator right value (Signature.find? leftKind operator rightKind) := by
  rw [Signature.find?_of_ofSymbol?_eq_none hUnknown]
  exact hValue

theorem answers_onIntegers (left : Integer) (operator : String) (right : Integer) :
    Answers (.integer left) operator (.integer right) (onIntegers left operator right)
      (Signature.find? .integer operator .integer) := by
  cases hOperation : Operation.ofSymbol? operator with
  | none =>
      apply answers_of_ofSymbol?_eq_none hOperation
      rw [onIntegers, hOperation]
  | some operation =>
      rw [onIntegers, hOperation, Operation.eq_symbol_of_ofSymbol? hOperation]
      cases operation with
      | compare test =>
          cases test
          all_goals exact Or.inl rfl
      | connect connective =>
          cases connective
          all_goals rfl
      | compute operation =>
          have row : Signature.find? .integer (Operation.compute operation).symbol .integer =
              some ⟨.integer, ["+", "-", "*", "/", "%"], .integer, .integer, true⟩ := by
            cases operation
            all_goals rfl
          rw [row]
          by_cases byZero : (operation.divides && right.toInt == 0) = true
          · simp only [if_pos byZero]
            exact Or.inr ⟨rfl, _, rfl, .divisionByZero _ _ _⟩
          · simp only [if_neg byZero]
            cases operation.result? left right with
            | some result => exact Or.inl rfl
            | none => exact Or.inr ⟨rfl, _, rfl, .integerOverflow _ _ _⟩

theorem answers_onBooleans (left : Bool) (operator : String) (right : Bool) :
    Answers (.boolean left) operator (.boolean right) (onBooleans left operator right)
      (Signature.find? .boolean operator .boolean) := by
  cases hOperation : Operation.ofSymbol? operator with
  | none =>
      apply answers_of_ofSymbol?_eq_none hOperation
      rw [onBooleans, hOperation]
  | some operation =>
      rw [onBooleans, hOperation, Operation.eq_symbol_of_ofSymbol? hOperation]
      cases operation with
      | compare test =>
          cases test with
          | equal | notEqual => exact Or.inl rfl
          | less | lessOrEqual | greater | greaterOrEqual => rfl
      | connect connective =>
          cases connective
          all_goals exact Or.inl rfl
      | compute operation =>
          cases operation
          all_goals rfl

theorem answers_onTexts (left operator right : String) :
    Answers (.text left) operator (.text right) (onTexts left operator right)
      (Signature.find? .text operator .text) := by
  cases hOperation : Operation.ofSymbol? operator with
  | none =>
      apply answers_of_ofSymbol?_eq_none hOperation
      rw [onTexts, hOperation]
  | some operation =>
      rw [onTexts, hOperation, Operation.eq_symbol_of_ofSymbol? hOperation]
      cases operation with
      | compare test =>
          cases test
          all_goals exact Or.inl rfl
      | connect connective =>
          cases connective
          all_goals rfl
      | compute operation =>
          cases operation with
          | add => exact Or.inl rfl
          | subtract | multiply | divide | remainder => rfl

theorem answers_onTextAndCount (characters : String) (count : Integer) (operator : String)
    {left right : Value} {leftKind rightKind : Kind}
    (hKinds : leftKind = .integer ∧ rightKind = .text ∨ leftKind = .text ∧ rightKind = .integer) :
    Answers left operator right (onTextAndCount characters count left operator right)
      (Signature.find? leftKind operator rightKind) := by
  cases hOperation : Operation.ofSymbol? operator with
  | none =>
      apply answers_of_ofSymbol?_eq_none hOperation
      rw [onTextAndCount, hOperation]
  | some operation =>
      rw [onTextAndCount, hOperation, Operation.eq_symbol_of_ofSymbol? hOperation]
      -- The count may stand on either side, but only a product means something.
      cases operation with
      | compare test =>
          rcases hKinds with ⟨rfl, rfl⟩ | ⟨rfl, rfl⟩
          all_goals
            cases test
            all_goals rfl
      | connect connective =>
          rcases hKinds with ⟨rfl, rfl⟩ | ⟨rfl, rfl⟩
          all_goals
            cases connective
            all_goals rfl
      | compute operation =>
          cases operation with
          | multiply =>
              have row : Signature.find? leftKind "*" rightKind =
                  some ⟨leftKind, ["*"], rightKind, .text, true⟩ := by
                rcases hKinds with ⟨rfl, rfl⟩ | ⟨rfl, rfl⟩
                all_goals rfl
              rw [Operation.symbol, row]
              cases repeat? characters count with
              | some repeated => exact Or.inl rfl
              | none => exact Or.inr ⟨rfl, _, rfl, .invalidRepeatCount _ _⟩
          | add | subtract | divide | remainder =>
              rcases hKinds with ⟨rfl, rfl⟩ | ⟨rfl, rfl⟩
              all_goals rfl

theorem answers_apply {left right : Value} {leftKind rightKind : Kind}
    (hLeft : left.kind? = some leftKind) (hRight : right.kind? = some rightKind)
    (operator : String) :
    Answers left operator right (left.apply operator right)
      (Signature.find? leftKind operator rightKind) := by
  cases left with
  | failure cause => contradiction
  | integer first =>
      cases hLeft
      cases right with
      | failure cause => contradiction
      | integer second =>
          cases hRight
          exact answers_onIntegers first operator second
      | boolean second =>
          cases hRight
          rfl
      | text second =>
          cases hRight
          exact answers_onTextAndCount second first operator (Or.inl ⟨rfl, rfl⟩)
  | boolean first =>
      cases hLeft
      cases right with
      | failure cause => contradiction
      | integer second =>
          cases hRight
          rfl
      | boolean second =>
          cases hRight
          exact answers_onBooleans first operator second
      | text second =>
          cases hRight
          rfl
  | text first =>
      cases hLeft
      cases right with
      | failure cause => contradiction
      | integer second =>
          cases hRight
          exact answers_onTextAndCount first second operator (Or.inr ⟨rfl, rfl⟩)
      | boolean second =>
          cases hRight
          rfl
      | text second =>
          cases hRight
          exact answers_onTexts first operator second

theorem isFailure_apply_of_left {left : Value} (hLeft : left.isFailure = true)
    (operator : String) (right : Value) : (left.apply operator right).isFailure = true := by
  rw [apply_of_isFailure_left hLeft, hLeft]

theorem isFailure_apply_of_right {right : Value} (hRight : right.isFailure = true)
    (left : Value) (operator : String) : (left.apply operator right).isFailure = true := by
  cases hLeft : left.isFailure with
  | true => exact isFailure_apply_of_left hLeft operator right
  | false => rw [apply_of_isFailure_right hLeft operator hRight, hRight]

theorem exists_signature_of_kind?_apply {left right : Value} {operator : String} {kind : Kind}
    (hKind : (left.apply operator right).kind? = some kind) :
    ∃ leftKind rightKind signature, left.kind? = some leftKind ∧
      right.kind? = some rightKind ∧
      Signature.find? leftKind operator rightKind = some signature ∧ signature.result = kind := by
  have noFailure := isFailure_eq_false_of_kind? hKind
  cases hLeft : left.kind? with
  | none =>
      rw [isFailure_apply_of_left (kind?_eq_none_iff.mp hLeft)] at noFailure
      contradiction
  | some leftKind =>
      cases hRight : right.kind? with
      | none =>
          rw [isFailure_apply_of_right (kind?_eq_none_iff.mp hRight)] at noFailure
          contradiction
      | some rightKind =>
          have answers := answers_apply hLeft hRight operator
          cases hSignature : Signature.find? leftKind operator rightKind with
          | none =>
              rw [hSignature] at answers
              rw [answers] at noFailure
              contradiction
          | some signature =>
              rw [hSignature] at answers
              rcases answers with fits | ⟨_, cause, hCause, _⟩
              · rw [fits] at hKind
                exact ⟨leftKind, rightKind, signature, rfl, rfl, hSignature, Option.some.inj hKind⟩
              · rw [hCause] at noFailure
                contradiction

end Value
end OperatorCalculator
