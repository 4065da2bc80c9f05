import OperatorCalculator.Proofs.Text.Bytes
import OperatorCalculator.Proofs.Value.Kind

/-
Comparisons between values.

Two whole numbers, or two texts, lie in an order to one another, and each of the six comparisons
only asks which one.  So they agree with each other, and less is a strict total order: that of
whole numbers, and for texts that of their bytes, which is the order of their code points as well.
-/

set_option autoImplicit false

namespace OperatorCalculator

theorem Integer.toInt_inj {left right : Integer} : left.toInt = right.toInt ↔ left = right := by
  constructor
  · intro same
    cases left
    cases right
    congr
  · intro same
    rw [same]

namespace Value

/-! ### The order of two values -/

/-- Two whole numbers or two texts, and the order in which they lie to one another. -/
inductive Ordered : Value → Value → Ordering → Prop
  | integers (left right : Integer) :
      Ordered (.integer left) (.integer right) (compare left.toInt right.toInt)
  | texts (left right : String) : Ordered (.text left) (.text right) (compare left right)

namespace Ordered

variable {left right third : Value} {order : Ordering}

theorem of_kinds {kind : Kind} (hKind : kind ∈ [Kind.integer, Kind.text])
    (hLeft : left.kind? = some kind) (hRight : right.kind? = some kind) :
    ∃ order, Ordered left right order := by
  cases left with
  | integer first =>
      cases hLeft
      cases right with
      | integer second => exact ⟨_, .integers first second⟩
      | boolean second | text second | failure second => cases hRight
  | boolean first =>
      cases hLeft
      contradiction
  | text first =>
      cases hLeft
      cases right with
      | text second => exact ⟨_, .texts first second⟩
      | integer second | boolean second | failure second => cases hRight
  | failure first => cases hLeft

theorem eq_iff (hOrdered : Ordered left right order) : order = .eq ↔ left = right := by
  cases hOrdered with
  | integers first second =>
      rw [Std.compare_eq_iff_eq, Integer.toInt_inj, Value.integer.injEq]
  | texts first second => rw [Std.compare_eq_iff_eq, Value.text.injEq]

theorem swap (hOrdered : Ordered left right order) : Ordered right left order.swap := by
  cases hOrdered with
  | integers first second =>
      rw [← Std.OrientedOrd.eq_swap]
      exact .integers second first
  | texts first second =>
      rw [← Std.OrientedOrd.eq_swap]
      exact .texts second first

theorem trans {next : Ordering} (hFirst : Ordered left right order)
    (hSecond : Ordered right third next) (hLess : order = .lt) (hNext : next = .lt) :
    Ordered left third .lt := by
  cases hFirst with
  | integers first second =>
      cases hSecond with
      | integers _ last =>
          rw [← Std.TransCmp.lt_trans hLess hNext]
          exact .integers first last
  | texts first second =>
      cases hSecond with
      | texts _ last =>
          rw [← Std.TransCmp.lt_trans hLess hNext]
          exact .texts first last

/-- Every comparison asks for the order, and for nothing else. -/
theorem apply_symbol (hOrdered : Ordered left right order) (test : Comparison) :
    left.apply (Operation.compare test).symbol right = .boolean (test.holds order) := by
  cases hOrdered with
  | integers first second => simp only [apply, onIntegers, Operation.ofSymbol?_symbol]
  | texts first second => simp only [apply, onTexts, Operation.ofSymbol?_symbol]

end Ordered

/-! ### What comparisons tell -/

/-- The comparison between the two values is true. -/
def Holds (left : Value) (operator : String) (right : Value) : Prop :=
  left.apply operator right = .boolean true

instance (left : Value) (operator : String) (right : Value) :
    Decidable (Holds left operator right) :=
  inferInstanceAs (Decidable (left.apply operator right = .boolean true))

variable {left right third : Value} {order : Ordering}

theorem Ordered.holds_iff (hOrdered : Ordered left right order) (test : Comparison) :
    Holds left (Operation.compare test).symbol right ↔ test.holds order = true := by
  rw [Holds, hOrdered.apply_symbol, Value.boolean.injEq]

/-- The six comparisons between two values agree on one order. -/
structure Agree (left right : Value) : Prop where
  told : ∀ operator ∈ ["<", "==", ">", "<=", ">=", "!="],
    ∃ truth, left.apply operator right = .boolean truth
  exactlyOne : ∃! operator, operator ∈ ["<", "==", ">"] ∧ Holds left operator right
  lessOrEqual : Holds left "<=" right ↔ ¬Holds left ">" right
  greaterOrEqual : Holds left ">=" right ↔ ¬Holds left "<" right
  notEqual : Holds left "!=" right ↔ ¬Holds left "==" right
  reversed : Holds left ">" right ↔ Holds right "<" left
  same : Holds left "==" right ↔ left = right

theorem Ordered.exactlyOne (hOrdered : Ordered left right order) :
    ∃! operator, operator ∈ ["<", "==", ">"] ∧ Holds left operator right := by
  have symbols : ["<", "==", ">"] =
      [Comparison.less, .equal, .greater].map fun test => (Operation.compare test).symbol := rfl
  have oneHolds : ∀ order : Ordering, ∃ test ∈ [Comparison.less, .equal, .greater],
      test.holds order = true ∧
        ∀ other ∈ [Comparison.less, .equal, .greater], other.holds order = true → other = test := by
    decide
  rcases oneHolds order with ⟨test, member, holds, alone⟩
  rw [symbols]
  refine ⟨(Operation.compare test).symbol, ⟨List.mem_map_of_mem member, ?_⟩, ?_⟩
  · exact (hOrdered.holds_iff test).mpr holds
  · rintro operator ⟨listed, alsoHolds⟩
    rcases List.mem_map.mp listed with ⟨other, otherMember, rfl⟩
    rw [alone other otherMember ((hOrdered.holds_iff other).mp alsoHolds)]

/-- One comparison is the negation of another if it is for each order. -/
theorem Ordered.holds_iff_not (hOrdered : Ordered left right order) (test other : Comparison)
    (hTests : ∀ order, test.holds order = !other.holds order) :
    Holds left (Operation.compare test).symbol right ↔
      ¬Holds left (Operation.compare other).symbol right := by
  rw [hOrdered.holds_iff, hOrdered.holds_iff, hTests, Bool.not_eq_true', Bool.not_eq_true]

theorem Ordered.agree (hOrdered : Ordered left right order) : Agree left right where
  told := by
    intro operator member
    have symbols : ["<", "==", ">", "<=", ">=", "!="] =
        [Comparison.less, .equal, .greater, .lessOrEqual, .greaterOrEqual, .notEqual].map
          fun test => (Operation.compare test).symbol := rfl
    rw [symbols] at member
    rcases List.mem_map.mp member with ⟨test, _, rfl⟩
    exact ⟨_, hOrdered.apply_symbol test⟩
  exactlyOne := hOrdered.exactlyOne
  lessOrEqual := hOrdered.holds_iff_not .lessOrEqual .greater (by decide)
  greaterOrEqual := hOrdered.holds_iff_not .greaterOrEqual .less (by decide)
  notEqual := hOrdered.holds_iff_not .notEqual .equal (by decide)
  reversed := by
    have greater := hOrdered.holds_iff .greater
    have less := hOrdered.swap.holds_iff .less
    have turned : Comparison.less.holds order.swap = Comparison.greater.holds order := by
      cases order with
      | lt | eq | gt => rfl
    rw [turned] at less
    exact greater.trans less.symm
  same := by
    have equal := hOrdered.holds_iff .equal
    rw [← hOrdered.eq_iff]
    exact equal.trans Ordering.isEq_iff_eq_eq

theorem Ordered.holds_less_iff (hOrdered : Ordered left right order) :
    Holds left "<" right ↔ order = .lt := by
  have less := hOrdered.holds_iff .less
  exact less.trans Ordering.isLT_iff_eq_lt

/-- Less is transitive, since orders are. -/
theorem holds_trans {kind : Kind} (hKind : kind ∈ [Kind.integer, Kind.text])
    (hLeft : left.kind? = some kind) (hRight : right.kind? = some kind)
    (hThird : third.kind? = some kind) (hFirst : Holds left "<" right)
    (hSecond : Holds right "<" third) : Holds left "<" third := by
  rcases Ordered.of_kinds hKind hLeft hRight with ⟨order, first⟩
  rcases Ordered.of_kinds hKind hRight hThird with ⟨next, second⟩
  have less := first.holds_less_iff.mp hFirst
  have nextLess := second.holds_less_iff.mp hSecond
  exact (first.trans second less nextLess).holds_less_iff.mpr rfl

end Value

/-- Between two whole numbers, and between two texts, the comparisons are those of a strict total
order.  Whole numbers have theirs; texts that of their bytes, which is that of their code
points. -/
theorem comparisons_form_total_order :
    (∀ kind ∈ [Kind.integer, Kind.text], ∀ left right : Value,
      left.kind? = some kind → right.kind? = some kind →
      Value.Agree left right ∧
      ∀ third : Value, third.kind? = some kind → Value.Holds left "<" right →
        Value.Holds right "<" third → Value.Holds left "<" third) ∧
    (∀ left right : Integer,
      Value.Holds (.integer left) "<" (.integer right) ↔ left.toInt < right.toInt) ∧
    ∀ left right : String,
      (Value.Holds (.text left) "<" (.text right) ↔
        List.Lex (· < ·) (bytesOf left) (bytesOf right)) ∧
      (List.Lex (· < ·) (bytesOf left) (bytesOf right) ↔
        List.Lex (· < ·) (left.toList.map Char.toNat) (right.toList.map Char.toNat)) := by
  refine ⟨?_, ?_, ?_⟩
  · intro kind hKind left right hLeft hRight
    rcases Value.Ordered.of_kinds hKind hLeft hRight with ⟨order, ordered⟩
    refine ⟨ordered.agree, ?_⟩
    intro third hThird hFirst hSecond
    exact Value.holds_trans hKind hLeft hRight hThird hFirst hSecond
  · intro left right
    rw [(Value.Ordered.integers left right).holds_less_iff, compare_lt_iff_lt]
  · intro left right
    rw [(Value.Ordered.texts left right).holds_less_iff, compare_lt_iff_lt, lex_bytesOf_iff,
      lex_codePoints_iff]
    exact ⟨Iff.rfl, Iff.rfl⟩

/-- The last character of the basic plane and one of the next plane, which the order of their
sixteen-bit units would turn around, and a text that goes on. -/
theorem comparisons_form_total_order_across_planes :
    let low := Value.text "\uffff"
    let high := Value.text (String.singleton (Char.ofNat 0x10000))
    let longer := Value.text (String.singleton (Char.ofNat 0x10000) ++ "\x00")
    (Kind.text ∈ [Kind.integer, Kind.text] ∧ low.kind? = some .text ∧ high.kind? = some .text ∧
      longer.kind? = some .text) ∧
    Value.Agree low high ∧
    Value.Holds low "<" high ∧ Value.Holds high "<" longer ∧ Value.Holds low "<" longer := by
  intro low high longer
  have first : Value.Holds low "<" high := by
    decide +kernel
  have second : Value.Holds high "<" longer := by
    decide +kernel
  have general := comparisons_form_total_order.1 .text (by decide) low high rfl rfl
  exact ⟨⟨by decide, rfl, rfl, rfl⟩, general.1, first, second, general.2 longer rfl first second⟩

end OperatorCalculator
