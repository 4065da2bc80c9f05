import OperatorCalculator.Proofs.Value.Printed
import OperatorCalculator.Value.Operation

/-
Values on one line.

The printed form of a value has no newline, even if the value is a text that has some: they
are escaped.  A failure is printed as it stands, but all it tells of are printed operands and
words of the expression.  So on one line an expression can only have a value on one line.
-/

set_option autoImplicit false

namespace OperatorCalculator

/-! ### Newlines in a text -/

def newlines (text : String) : Nat :=
  text.toList.count '\n'

theorem newlines_append (front back : String) :
    newlines (front ++ back) = newlines front + newlines back := by
  rw [newlines, String.toList_append, List.count_append]
  rfl

theorem newlines_append_eq_zero {front back : String} (hFront : newlines front = 0)
    (hBack : newlines back = 0) : newlines (front ++ back) = 0 := by
  rw [newlines_append, hFront, hBack]

/-- Of a text between two others only the newlines of these are left to count. -/
theorem newlines_around {text : String} (hText : newlines text = 0) (front back : String) :
    newlines (front ++ text ++ back) = newlines (front ++ back) := by
  rw [newlines_append, newlines_append, newlines_append, hText, Nat.add_zero]

theorem newlines_eq_zero_iff {text : String} : newlines text = 0 ↔ '\n' ∉ text.toList :=
  List.count_eq_zero

theorem newlines_eq_zero_of_subset {text source : String} (hSource : newlines source = 0)
    (hSubset : text.toList ⊆ source.toList) : newlines text = 0 := by
  rw [newlines_eq_zero_iff] at hSource ⊢
  exact fun member => hSource (hSubset member)

namespace Text

theorem newline_not_mem_escape (concealed : Char → Bool) (character : Char) :
    '\n' ∉ escape concealed character := by
  unfold escape
  split
  case h_7 _ _ _ hNewline _ _ =>
    split
    · intro member
      have digits := List.all_eq_true.mp (denotes_toDigits character.toNat).all_isHexDigit
      simp only [escapeByCodePoint, List.cons_append, List.nil_append, List.mem_cons,
        List.mem_append, List.not_mem_nil, or_false] at member
      rcases member with backslash | letter | opening | digit | closing
      · contradiction
      · contradiction
      · contradiction
      · have newline := digits '\n' digit
        contradiction
      · contradiction
    · intro member
      exact hNewline (List.mem_singleton.mp member).symm
  all_goals decide

theorem newlines_quote (text : String) : newlines (quote text) = 0 := by
  rw [newlines_eq_zero_iff, quote, String.toList_ofList, encode]
  intro member
  rcases List.mem_append.mp member with inFront | closing
  · rcases List.mem_cons.mp inFront with opening | inside
    · contradiction
    · rcases List.mem_flatMap.mp inside with ⟨character, _, escaped⟩
      exact newline_not_mem_escape isConcealed character escaped
  · have newline := List.mem_singleton.mp closing
    contradiction

end Text

theorem newlines_repr (number : Nat) : newlines number.repr = 0 := by
  rw [newlines_eq_zero_iff]
  intro member
  have digit := Text.isDigit_of_mem_repr member
  contradiction

theorem newlines_toString (number : Int) : newlines (toString number) = 0 := by
  cases number with
  | ofNat magnitude => exact newlines_repr magnitude
  | negSucc magnitude =>
      show newlines ("-" ++ (magnitude + 1).repr) = 0
      rw [newlines_append, newlines_repr]
      decide +kernel

/-! ### Failures -/

/-- The failure tells of two printed operands and of the operator between them. -/
inductive Failure.TellsOf (left operator right : String) : Failure → Prop
  | illegalOperation : TellsOf left operator right (.illegalOperation left operator right)
  | divisionByZero : TellsOf left operator right (.divisionByZero left operator right)
  | integerOverflow : TellsOf left operator right (.integerOverflow left operator right)
  | invalidRepeatCount : TellsOf left operator right (.invalidRepeatCount left right)

theorem Failure.newlines_sketch {left operator right : String} (hLeft : newlines left = 0)
    (hOperator : newlines operator = 0) (hRight : newlines right = 0) :
    newlines (sketch left operator right) = 0 := by
  simp only [sketch, newlines_append, hLeft, hOperator, hRight]
  decide +kernel

theorem Failure.TellsOf.newlines_message {left operator right : String} {cause : Failure}
    (hCause : cause.TellsOf left operator right) (hLeft : newlines left = 0)
    (hOperator : newlines operator = 0) (hRight : newlines right = 0) :
    newlines cause.message = 0 := by
  cases hCause with
  | illegalOperation =>
      exact newlines_append_eq_zero (by decide +kernel) (newlines_sketch hLeft hOperator hRight)
  | divisionByZero =>
      exact newlines_append_eq_zero (by decide +kernel) (newlines_sketch hLeft hOperator hRight)
  | integerOverflow =>
      exact newlines_append_eq_zero (by decide +kernel) (newlines_sketch hLeft hOperator hRight)
  | invalidRepeatCount =>
      exact newlines_append_eq_zero (by decide +kernel)
        (newlines_sketch hLeft (by decide +kernel) hRight)

namespace Value

variable {operator : String} {cause : Failure}

theorem tellsOf_of_onIntegers {left right : Integer}
    (hCause : onIntegers left operator right = .failure cause) :
    cause.TellsOf (render (.integer left)) operator (render (.integer right)) := by
  unfold onIntegers at hCause
  split at hCause
  · contradiction
  · split at hCause
    · cases hCause
      exact .divisionByZero
    · split at hCause
      · contradiction
      · cases hCause
        exact .integerOverflow
  · cases hCause
    exact .illegalOperation

theorem tellsOf_of_onBooleans {left right : Bool}
    (hCause : onBooleans left operator right = .failure cause) :
    cause.TellsOf (render (.boolean left)) operator (render (.boolean right)) := by
  unfold onBooleans at hCause
  split at hCause
  case h_5 =>
    cases hCause
    exact .illegalOperation
  all_goals contradiction

theorem tellsOf_of_onTexts {left right : String}
    (hCause : onTexts left operator right = .failure cause) :
    cause.TellsOf (render (.text left)) operator (render (.text right)) := by
  unfold onTexts at hCause
  split at hCause
  case h_3 =>
    cases hCause
    exact .illegalOperation
  all_goals contradiction

theorem tellsOf_of_onTextAndCount {characters : String} {count : Integer} {left right : Value}
    (hCause : onTextAndCount characters count left operator right = .failure cause) :
    cause.TellsOf left.render operator right.render := by
  unfold onTextAndCount at hCause
  split at hCause
  · split at hCause
    · contradiction
    · cases hCause
      exact .invalidRepeatCount
  · cases hCause
    exact .illegalOperation

/-- An operator between two values that are no failures only fails with both of them. -/
theorem tellsOf_of_apply {left right : Value} (hLeft : left.isFailure = false)
    (hRight : right.isFailure = false) (hCause : left.apply operator right = .failure cause) :
    cause.TellsOf left.render operator right.render := by
  cases left with
  | failure other => contradiction
  | integer first =>
      cases right with
      | failure other => contradiction
      | integer second => exact tellsOf_of_onIntegers hCause
      | boolean second =>
          cases hCause
          exact .illegalOperation
      | text second => exact tellsOf_of_onTextAndCount hCause
  | boolean first =>
      cases right with
      | failure other => contradiction
      | boolean second => exact tellsOf_of_onBooleans hCause
      | integer second | text second =>
          cases hCause
          exact .illegalOperation
  | text first =>
      cases right with
      | failure other => contradiction
      | integer second => exact tellsOf_of_onTextAndCount hCause
      | text second => exact tellsOf_of_onTexts hCause
      | boolean second =>
          cases hCause
          exact .illegalOperation

/-! ### Values -/

theorem newlines_render_of_not_isFailure {value : Value} (hValue : value.isFailure = false) :
    newlines value.render = 0 := by
  cases value with
  | failure cause => contradiction
  | integer number => exact newlines_toString number.toInt
  | text characters => exact Text.newlines_quote characters
  | boolean truth =>
      cases truth
      all_goals decide +kernel

theorem newlines_render_ofLiteral {token : String} (hToken : newlines token = 0) :
    newlines (ofLiteral token).render = 0 := by
  unfold ofLiteral
  split
  · exact newlines_render_of_not_isFailure rfl
  · split
    · exact newlines_render_of_not_isFailure rfl
    · split
      · exact newlines_render_of_not_isFailure rfl
      · exact (newlines_around hToken _ _).trans (by decide +kernel)

theorem newlines_render_apply {left right : Value} (hLeft : newlines left.render = 0)
    (hOperator : newlines operator = 0) (hRight : newlines right.render = 0) :
    newlines (left.apply operator right).render = 0 := by
  cases hLeftFails : left.isFailure with
  | true => rwa [apply_of_isFailure_left hLeftFails]
  | false =>
      cases hRightFails : right.isFailure with
      | true => rwa [apply_of_isFailure_right hLeftFails operator hRightFails]
      | false =>
          cases hValue : left.apply operator right with
          | failure cause =>
              exact (tellsOf_of_apply hLeftFails hRightFails hValue).newlines_message hLeft
                hOperator hRight
          | integer number | boolean truth | text characters =>
              exact newlines_render_of_not_isFailure rfl

end Value
end OperatorCalculator
