import OperatorCalculator.Proofs.Value.Kind

/-
Arithmetic on whole numbers.

A sum, a difference or a product is exact, or it fails because it does not fit.  Quotient
and remainder make up the dividend again: the quotient is rounded toward zero, and the
remainder is smaller than the divisor and on the side of the dividend.  A division has no
result only if it is by zero, or if it takes the least number to the other side of zero.
-/

set_option autoImplicit false

namespace OperatorCalculator

/-! ### Results that fit -/

namespace Integer

/-- The number can be written with sixty-four bits, one of them for the sign. -/
def InRange (exact : Int) : Prop :=
  -9223372036854775808 ≤ exact ∧ exact ≤ 9223372036854775807

instance (exact : Int) : Decidable (InRange exact) :=
  inferInstanceAs (Decidable (-9223372036854775808 ≤ exact ∧ exact ≤ 9223372036854775807))

theorem inRange (number : Integer) : InRange number.toInt := by
  have lower := number.lower
  have upper := number.upper
  unfold InRange
  omega

theorem exists_ofInt?_of_inRange {exact : Int} (hRange : InRange exact) :
    ∃ number, ofInt? exact = some number ∧ number.toInt = exact := by
  unfold InRange at hRange
  cases hNumber : ofInt? exact with
  | none =>
      have outside := ofInt?_eq_none_iff.mp hNumber
      omega
  | some number => exact ⟨number, rfl, ofInt?_eq_some_iff.mp hNumber⟩

theorem ofInt?_of_not_inRange {exact : Int} (hRange : ¬InRange exact) : ofInt? exact = none := by
  unfold InRange at hRange
  apply ofInt?_eq_none_iff.mpr
  omega

/-- A quotient leaves the range only if it is the least number with its sign changed. -/
theorem inRange_tdiv_iff {dividend divisor : Int} (hDividend : InRange dividend)
    (hNonzero : divisor ≠ 0) :
    InRange (dividend.tdiv divisor) ↔ ¬(dividend = -9223372036854775808 ∧ divisor = -1) := by
  have size := Int.natAbs_tdiv dividend divisor
  change _ = dividend.natAbs / divisor.natAbs at size
  unfold InRange at hDividend ⊢
  constructor
  · intro inside least
    rw [least.1, least.2] at inside
    exact absurd inside (by decide)
  · intro notLeast
    by_cases unit : divisor.natAbs = 1
    · by_cases positive : divisor = 1
      · rw [positive, Int.tdiv_one]
        exact hDividend
      · have negative : divisor = -1 := by omega
        rw [negative, Int.tdiv_neg, Int.tdiv_one]
        omega
    · have half : dividend.natAbs / divisor.natAbs ≤ dividend.natAbs / 2 :=
        Nat.div_le_div_left (by omega) (by decide)
      omega

theorem natAbs_tmod_lt (dividend : Int) {divisor : Int} (hNonzero : divisor ≠ 0) :
    (dividend.tmod divisor).natAbs < divisor.natAbs := by
  rw [Int.natAbs_tmod]
  exact Nat.mod_lt _ (Int.natAbs_pos.mpr hNonzero)

theorem inRange_tmod (dividend : Int) {divisor : Int} (hDivisor : InRange divisor)
    (hNonzero : divisor ≠ 0) : InRange (dividend.tmod divisor) := by
  have smaller := natAbs_tmod_lt dividend hNonzero
  unfold InRange at hDivisor ⊢
  omega

theorem tmod_eq_zero_or_sign_eq (dividend divisor : Int) :
    dividend.tmod divisor = 0 ∨ (dividend.tmod divisor).sign = dividend.sign := by
  have sign := Int.sign_tmod dividend divisor
  split at sign
  · exact Or.inl (Int.sign_eq_zero_iff_zero.mp sign)
  · exact Or.inr sign

end Integer

/-! ### Quotients and remainders -/

namespace Arithmetic

variable {left right : Integer}

/-- A quotient and the remainder that belongs to it. -/
structure Divides (dividend divisor quotient remainder : Int) : Prop where
  whole : dividend = quotient * divisor + remainder
  smaller : remainder.natAbs < divisor.natAbs
  sameSide : remainder = 0 ∨ remainder.sign = dividend.sign

theorem exists_divides (hNonzero : right.toInt ≠ 0)
    (hLeast : ¬(left.toInt = -9223372036854775808 ∧ right.toInt = -1)) :
    ∃ quotient rest, divide.result? left right = some quotient ∧
      remainder.result? left right = some rest ∧
      Divides left.toInt right.toInt quotient.toInt rest.toInt := by
  have quotientInRange := (Integer.inRange_tdiv_iff left.inRange hNonzero).mpr hLeast
  rcases Integer.exists_ofInt?_of_inRange quotientInRange with ⟨quotient, hQuotient, quotientEq⟩
  have restInRange := Integer.inRange_tmod left.toInt right.inRange hNonzero
  rcases Integer.exists_ofInt?_of_inRange restInRange with ⟨rest, hRest, restEq⟩
  refine ⟨quotient, rest, hQuotient, ?_, ?_, ?_, ?_⟩
  · rw [result?, hQuotient, Option.bind_some, hRest]
  · rw [quotientEq, restEq, Int.tdiv_mul_add_tmod]
  · rw [restEq]
    exact Integer.natAbs_tmod_lt left.toInt hNonzero
  · rw [restEq]
    exact Integer.tmod_eq_zero_or_sign_eq left.toInt right.toInt

/-- A quotient that does not fit leaves its remainder without a value as well. -/
theorem result?_of_least {operation : Arithmetic} (hDivides : operation.divides = true)
    (hLeft : left.toInt = -9223372036854775808) (hRight : right.toInt = -1) :
    operation.result? left right = none := by
  have outside : Integer.ofInt? (left.toInt.tdiv right.toInt) = none := by
    rw [hLeft, hRight]
    rfl
  cases operation with
  | add | subtract | multiply => contradiction
  | divide => exact outside
  | remainder =>
      rw [result?, outside]
      rfl

end Arithmetic

/-! ### What comes of an operator -/

namespace Value

/-- The operator fails between whole numbers.  Behind its opening the message tells what stood
in the expression, in the order in which it stood there. -/
def FailsWith (opening : String) (left : Integer) (operator : String) (right : Integer) : Prop :=
  ∃ cause, (Value.integer left).apply operator (.integer right) = .failure cause ∧
    cause.message = opening ++
      ("'" ++ toString left.toInt ++ " " ++ operator ++ " " ++ toString right.toInt ++ "'")

variable {left right result : Integer} {operator : String}

theorem not_failsWith_of_integer
    (hResult : (Value.integer left).apply operator (.integer right) = .integer result)
    (opening : String) : ¬FailsWith opening left operator right := by
  intro fails
  rcases fails with ⟨cause, hCause, _⟩
  rw [hResult] at hCause
  contradiction

theorem FailsWith.opening_eq {opening other : String}
    (hFails : FailsWith opening left operator right)
    (hOther : FailsWith other left operator right) : opening = other := by
  rcases hFails with ⟨cause, hCause, message⟩
  rcases hOther with ⟨same, hSame, otherMessage⟩
  rw [hCause, Value.failure.injEq] at hSame
  rw [← hSame, message] at otherMessage
  exact (String.append_left_inj _).mp otherMessage

variable (operation : Arithmetic)

theorem apply_symbol (left right : Integer) :
    (Value.integer left).apply (Operation.compute operation).symbol (.integer right) =
      onIntegers left (Operation.compute operation).symbol right := rfl

theorem apply_of_result? (hDivisor : operation.divides = true → right.toInt ≠ 0)
    (hResult : operation.result? left right = some result) :
    (Value.integer left).apply (Operation.compute operation).symbol (.integer right) =
      .integer result := by
  have noZero : ¬(operation.divides && right.toInt == 0) = true := by
    simpa using hDivisor
  rw [apply_symbol, onIntegers, Operation.ofSymbol?_symbol]
  simp only [if_neg noZero, hResult]

theorem failsWith_overflow (hDivisor : operation.divides = true → right.toInt ≠ 0)
    (hResult : operation.result? left right = none) :
    FailsWith "integer overflow: " left (Operation.compute operation).symbol right := by
  have noZero : ¬(operation.divides && right.toInt == 0) = true := by
    simpa using hDivisor
  refine ⟨.integerOverflow (toString left.toInt) (Operation.compute operation).symbol
    (toString right.toInt), ?_, rfl⟩
  rw [apply_symbol, onIntegers, Operation.ofSymbol?_symbol]
  simp only [if_neg noZero, hResult]

theorem failsWith_divisionByZero (left : Integer) (hDivides : operation.divides = true)
    (hZero : right.toInt = 0) :
    FailsWith "division by zero: " left (Operation.compute operation).symbol right := by
  have byZero : (operation.divides && right.toInt == 0) = true := by
    simp [hDivides, hZero]
  refine ⟨.divisionByZero (toString left.toInt) (Operation.compute operation).symbol
    (toString right.toInt), ?_, rfl⟩
  rw [apply_symbol, onIntegers, Operation.ofSymbol?_symbol]
  simp only [if_pos byZero]

/-- An operation that divides fails in two cases, and tells them apart. -/
theorem failsWith_iff_of_divides (left right : Integer) (hDivides : operation.divides = true) :
    (FailsWith "division by zero: " left (Operation.compute operation).symbol right ↔
      right.toInt = 0) ∧
    (FailsWith "integer overflow: " left (Operation.compute operation).symbol right ↔
      left.toInt = -9223372036854775808 ∧ right.toInt = -1) := by
  by_cases zero : right.toInt = 0
  · have fails := failsWith_divisionByZero operation left hDivides zero
    refine ⟨iff_of_true fails zero, iff_of_false ?_ (by omega)⟩
    intro overflow
    exact absurd (fails.opening_eq overflow) (by decide)
  · by_cases least : left.toInt = -9223372036854775808 ∧ right.toInt = -1
    · have fails := failsWith_overflow operation (fun _ => zero)
        (Arithmetic.result?_of_least hDivides least.1 least.2)
      refine ⟨iff_of_false ?_ zero, iff_of_true fails least⟩
      intro byZero
      exact absurd (fails.opening_eq byZero) (by decide)
    · rcases Arithmetic.exists_divides zero least with ⟨quotient, rest, hQuotient, hRest, _⟩
      have result : ∃ result, operation.result? left right = some result := by
        cases operation with
        | add | subtract | multiply => contradiction
        | divide => exact ⟨quotient, hQuotient⟩
        | remainder => exact ⟨rest, hRest⟩
      rcases result with ⟨result, hResult⟩
      have noFailure := not_failsWith_of_integer
        (apply_of_result? operation (fun _ => zero) hResult)
      exact ⟨iff_of_false (noFailure _) zero, iff_of_false (noFailure _) least⟩

/-- An operation that does not divide is exact, or it fails. -/
theorem exact_or_overflow {exact : Int} (hDivides : operation.divides = false)
    (hExact : operation.result? left right = Integer.ofInt? exact) :
    (Integer.InRange exact → ∃ result : Integer, result.toInt = exact ∧
      (Value.integer left).apply (Operation.compute operation).symbol (.integer right) =
        .integer result) ∧
    (¬Integer.InRange exact →
      FailsWith "integer overflow: " left (Operation.compute operation).symbol right) := by
  have noDivisor : operation.divides = true → right.toInt ≠ 0 := by
    intro divides
    rw [hDivides] at divides
    contradiction
  constructor
  · intro inRange
    rcases Integer.exists_ofInt?_of_inRange inRange with ⟨result, hResult, resultEq⟩
    exact ⟨result, resultEq, apply_of_result? operation noDivisor (hExact.trans hResult)⟩
  · intro notInRange
    have noResult := Integer.ofInt?_of_not_inRange notInRange
    exact failsWith_overflow operation noDivisor (hExact.trans noResult)

end Value

/-- Between whole numbers a sum, a difference or a product is exact if it is in range, and an
overflow otherwise.  A quotient and its remainder make up the dividend, unless the divisor is
zero or the quotient the one that is out of range.  Each failure tells of the operands and the
operator in the order in which they stood. -/
theorem whole_number_arithmetic_is_exact_or_fails (left right : Integer) :
    (∀ operator exact,
      (operator, exact) ∈ [("+", left.toInt + right.toInt), ("-", left.toInt - right.toInt),
        ("*", left.toInt * right.toInt)] →
      (Integer.InRange exact → ∃ result : Integer, result.toInt = exact ∧
        (Value.integer left).apply operator (.integer right) = .integer result) ∧
      (¬Integer.InRange exact → Value.FailsWith "integer overflow: " left operator right)) ∧
    (∀ operator ∈ ["/", "%"],
      (Value.FailsWith "division by zero: " left operator right ↔ right.toInt = 0) ∧
      (Value.FailsWith "integer overflow: " left operator right ↔
        left.toInt = -9223372036854775808 ∧ right.toInt = -1)) ∧
    (right.toInt ≠ 0 → ¬(left.toInt = -9223372036854775808 ∧ right.toInt = -1) →
      ∃ quotient rest : Integer,
        (Value.integer left).apply "/" (.integer right) = .integer quotient ∧
        (Value.integer left).apply "%" (.integer right) = .integer rest ∧
        Arithmetic.Divides left.toInt right.toInt quotient.toInt rest.toInt) := by
  refine ⟨?_, ?_, ?_⟩
  · intro operator exact member
    simp only [List.mem_cons, Prod.mk.injEq, List.not_mem_nil, or_false] at member
    rcases member with ⟨rfl, rfl⟩ | ⟨rfl, rfl⟩ | ⟨rfl, rfl⟩
    · exact Value.exact_or_overflow .add rfl rfl
    · exact Value.exact_or_overflow .subtract rfl rfl
    · exact Value.exact_or_overflow .multiply rfl rfl
  · intro operator member
    simp only [List.mem_cons, List.not_mem_nil, or_false] at member
    rcases member with rfl | rfl
    · exact Value.failsWith_iff_of_divides .divide left right rfl
    · exact Value.failsWith_iff_of_divides .remainder left right rfl
  · intro nonzero notLeast
    rcases Arithmetic.exists_divides nonzero notLeast with
      ⟨quotient, rest, hQuotient, hRest, divides⟩
    refine ⟨quotient, rest, ?_, ?_, divides⟩
    · exact Value.apply_of_result? .divide (fun _ => nonzero) hQuotient
    · exact Value.apply_of_result? .remainder (fun _ => nonzero) hRest

/-- The least number times minus one, less minus one, over minus one and over three. -/
theorem whole_number_arithmetic_of_least :
    let least : Integer := ⟨-9223372036854775808, by decide, by decide⟩
    let minusOne : Integer := ⟨-1, by decide, by decide⟩
    let three : Integer := ⟨3, by decide, by decide⟩
    (¬Integer.InRange (least.toInt * minusOne.toInt) ∧
      Value.FailsWith "integer overflow: " least "*" minusOne) ∧
    (Integer.InRange (least.toInt - minusOne.toInt) ∧
      ∃ result : Integer, result.toInt = least.toInt - minusOne.toInt ∧
        (Value.integer least).apply "-" (.integer minusOne) = .integer result) ∧
    Value.FailsWith "integer overflow: " least "%" minusOne ∧
    three.toInt ≠ 0 ∧ ¬(least.toInt = -9223372036854775808 ∧ three.toInt = -1) ∧
    ∃ quotient rest : Integer,
      (Value.integer least).apply "/" (.integer three) = .integer quotient ∧
      (Value.integer least).apply "%" (.integer three) = .integer rest ∧
      Arithmetic.Divides least.toInt three.toInt quotient.toInt rest.toInt := by
  intro least minusOne three
  have byMinusOne := whole_number_arithmetic_is_exact_or_fails least minusOne
  have byThree := whole_number_arithmetic_is_exact_or_fails least three
  refine ⟨⟨by decide, ?_⟩, ⟨by decide, ?_⟩, ?_, by decide, by decide, ?_⟩
  · exact (byMinusOne.1 "*" (least.toInt * minusOne.toInt) (by simp)).2 (by decide)
  · exact (byMinusOne.1 "-" (least.toInt - minusOne.toInt) (by simp)).1 (by decide)
  · exact (byMinusOne.2.1 "%" (by simp)).2.mpr ⟨rfl, rfl⟩
  · exact byThree.2.2 (by decide) (by decide)

end OperatorCalculator
