import OperatorCalculator.Proofs.Value.Arithmetic

/-
Repetition of texts.

A text times a number is that many copies of it, one after the other, and the two may stand in
either order.  There are as many bytes as the product tells, so the product has a value exactly if
the number is not negative and the bytes are not too many.  Copies of a sum of numbers are the
copies of the first number with those of the second behind them.
-/

set_option autoImplicit false

namespace OperatorCalculator

/-! ### Copies -/

/-- Doubling makes the same text as one copy after the other. -/
theorem copies_eq_join (characters : String) (count : Nat) :
    copies characters count = String.join (List.replicate count characters) := by
  induction count using Nat.strongRecOn with
  | ind count ih =>
      rw [copies]
      split
      · rename_i isZero
        rw [isZero]
        rfl
      · have half : count / 2 < count := by omega
        simp only [ih (count / 2) half]
        split
        · rename_i even
          have doubled : count / 2 + count / 2 = count := by omega
          rw [← String.join_append, List.replicate_append_replicate, doubled]
        · rename_i odd
          have doubled : count / 2 + count / 2 + 1 = count := by omega
          have halves : List.replicate count characters =
              List.replicate (count / 2) characters ++ List.replicate (count / 2) characters ++
                [characters] := by
            rw [List.replicate_append_replicate, ← List.replicate_succ', doubled]
          rw [halves, String.join_append, String.join_append, String.join_cons, String.join_nil,
            String.append_empty]

theorem copies_add (characters : String) (first second : Nat) :
    copies characters (first + second) = copies characters first ++ copies characters second := by
  rw [copies_eq_join, copies_eq_join, copies_eq_join, ← String.join_append,
    List.replicate_append_replicate]

theorem utf8ByteSize_copies (characters : String) (count : Nat) :
    (copies characters count).utf8ByteSize = count * characters.utf8ByteSize := by
  induction count with
  | zero =>
      rw [Nat.zero_mul, copies_eq_join]
      rfl
  | succ count ih =>
      have single : copies characters 1 = characters := by
        rw [copies_eq_join, List.replicate_one, String.join_cons, String.join_nil,
          String.append_empty]
      rw [copies_add, String.utf8ByteSize_append, ih, single, Nat.succ_mul]

/-! ### Products that have a value -/

/-- The number of copies is not negative, and together they have few enough bytes. -/
def Repeatable (characters : String) (count : Int) : Prop :=
  0 ≤ count ∧ count * characters.utf8ByteSize ≤ 268435456

instance (characters : String) (count : Int) : Decidable (Repeatable characters count) :=
  inferInstanceAs (Decidable (0 ≤ count ∧ count * characters.utf8ByteSize ≤ 268435456))

variable {characters : String} {count : Integer}

theorem repeatable_iff :
    Repeatable characters count.toInt ↔
      0 ≤ count.toInt ∧
        characters.utf8ByteSize * count.toInt.toNat ≤ longestRepetition := by
  unfold Repeatable
  apply and_congr_right
  intro nonnegative
  have bytes : ((characters.utf8ByteSize * count.toInt.toNat : Nat) : Int) =
      count.toInt * characters.utf8ByteSize := by
    rw [Int.natCast_mul, Int.toNat_of_nonneg nonnegative, Int.mul_comm]
  rw [← bytes]
  unfold longestRepetition
  omega

theorem repeat?_of_repeatable (hCount : Repeatable characters count.toInt) :
    repeat? characters count = some (copies characters count.toInt.toNat) :=
  if_pos (repeatable_iff.mp hCount)

theorem repeat?_of_not_repeatable (hCount : ¬Repeatable characters count.toInt) :
    repeat? characters count = none := by
  apply if_neg
  intro fits
  exact hCount (repeatable_iff.mpr fits)

/-- Fewer copies of a text fit if more of them do. -/
theorem Repeatable.mono {first second : Int} (hSecond : Repeatable characters second)
    (hFirst : 0 ≤ first) (hOrder : first ≤ second) : Repeatable characters first := by
  refine ⟨hFirst, ?_⟩
  have size : (0 : Int) ≤ characters.utf8ByteSize := Int.natCast_nonneg _
  exact Int.le_trans (Int.mul_le_mul_of_nonneg_right hOrder size) hSecond.2

/-! ### Products of values -/

namespace Value

/-- In either order the product is this text, which is made of the copies. -/
structure Repeats (characters : String) (count : Integer) (repeated : String) : Prop where
  textFirst : (Value.text characters).apply "*" (.integer count) = .text repeated
  countFirst : (Value.integer count).apply "*" (.text characters) = .text repeated
  copies : repeated = String.join (List.replicate count.toInt.toNat characters)
  size : (repeated.utf8ByteSize : Int) = count.toInt * characters.utf8ByteSize

/-- The product fails, and the message tells of the operands as they stood. -/
def FailsToRepeat (left right : Value) : Prop :=
  ∃ cause, left.apply "*" right = .failure cause ∧
    cause.message =
      "invalid repeat count: " ++ ("'" ++ left.render ++ " " ++ "*" ++ " " ++ right.render ++ "'")

theorem repeats_of_repeatable (hCount : Repeatable characters count.toInt) :
    Repeats characters count (OperatorCalculator.copies characters count.toInt.toNat) := by
  have fits := repeat?_of_repeatable hCount
  refine ⟨?_, ?_, copies_eq_join characters count.toInt.toNat, ?_⟩
  · simp only [apply, onTextAndCount, Operation.ofSymbol?, fits]
  · simp only [apply, onTextAndCount, Operation.ofSymbol?, fits]
  · rw [utf8ByteSize_copies, Int.natCast_mul, Int.toNat_of_nonneg hCount.1]

theorem failsToRepeat_of_not_repeatable (hCount : ¬Repeatable characters count.toInt) :
    FailsToRepeat (.text characters) (.integer count) ∧
      FailsToRepeat (.integer count) (.text characters) := by
  have tooLong := repeat?_of_not_repeatable hCount
  constructor
  · refine ⟨.invalidRepeatCount (render (.text characters)) (render (.integer count)), ?_, rfl⟩
    simp only [apply, onTextAndCount, Operation.ofSymbol?, tooLong]
  · refine ⟨.invalidRepeatCount (render (.integer count)) (render (.text characters)), ?_, rfl⟩
    simp only [apply, onTextAndCount, Operation.ofSymbol?, tooLong]

/-- Nothing but a number makes a text of a text by a product. -/
theorem exists_count_of_apply_multiply {right : Value} {repeated : String}
    (hProduct : (Value.text characters).apply "*" right = .text repeated) :
    ∃ count : Integer, right = .integer count ∧ Repeatable characters count.toInt := by
  cases right with
  | integer count =>
      by_cases fits : Repeatable characters count.toInt
      · exact ⟨count, rfl, fits⟩
      · rcases failsToRepeat_of_not_repeatable fits with ⟨⟨cause, hCause, _⟩, _⟩
        rw [hCause] at hProduct
        contradiction
  | boolean truth => contradiction
  | text other => contradiction
  | failure cause => contradiction

theorem toInt_of_apply_add {first second total : Integer}
    (hTotal : (Value.integer first).apply "+" (.integer second) = .integer total) :
    total.toInt = first.toInt + second.toInt := by
  have sum : Arithmetic.add.result? first second = Integer.ofInt? (first.toInt + second.toInt) :=
    rfl
  by_cases inRange : Integer.InRange (first.toInt + second.toInt)
  · rcases (exact_or_overflow .add rfl sum).1 inRange with ⟨result, resultEq, hResult⟩
    rw [Value.integer.inj (hTotal.symm.trans hResult), resultEq]
  · have fails := (exact_or_overflow .add rfl sum).2 inRange
    exact absurd fails (not_failsWith_of_integer hTotal _)

theorem apply_multiply_sum {first second : Integer} {longer : String}
    (hFirst : 0 ≤ first.toInt) (hSecond : 0 ≤ second.toInt)
    (hLonger : (Value.text characters).apply "*"
      ((Value.integer first).apply "+" (.integer second)) = .text longer) :
    ((Value.text characters).apply "*" (.integer first)).apply "+"
      ((Value.text characters).apply "*" (.integer second)) = .text longer := by
  rcases exists_count_of_apply_multiply hLonger with ⟨total, hTotal, fits⟩
  have sum := toInt_of_apply_add hTotal
  have whole := (repeats_of_repeatable fits).textFirst
  have front := (repeats_of_repeatable (fits.mono hFirst (by omega))).textFirst
  have back := (repeats_of_repeatable (fits.mono hSecond (by omega))).textFirst
  rw [hTotal, whole] at hLonger
  rw [front, back, ← hLonger, sum, Int.toNat_add hFirst hSecond, copies_add]
  rfl

end Value

/-- A text times a number is its copies in either order, provided that the number is not negative
and the copies have at most so many bytes; otherwise both products fail and tell of the operands
as they stood.  A product with a sum of two numbers is the sum of the products with each. -/
theorem repetition_is_bounded_and_symmetric (characters : String) :
    (∀ count : Integer,
      ((∃ repeated, Value.Repeats characters count repeated) ↔
        Repeatable characters count.toInt) ∧
      (¬Repeatable characters count.toInt →
        Value.FailsToRepeat (.text characters) (.integer count) ∧
          Value.FailsToRepeat (.integer count) (.text characters))) ∧
    ∀ (first second : Integer) (longer : String), 0 ≤ first.toInt → 0 ≤ second.toInt →
      (Value.text characters).apply "*" ((Value.integer first).apply "+" (.integer second)) =
        .text longer →
      ((Value.text characters).apply "*" (.integer first)).apply "+"
        ((Value.text characters).apply "*" (.integer second)) = .text longer := by
  constructor
  · intro count
    refine ⟨⟨?_, ?_⟩, Value.failsToRepeat_of_not_repeatable⟩
    · intro repeats
      rcases repeats with ⟨repeated, product⟩
      rcases Value.exists_count_of_apply_multiply product.textFirst with ⟨same, hSame, fits⟩
      rw [Value.integer.inj hSame]
      exact fits
    · intro fits
      exact ⟨_, Value.repeats_of_repeatable fits⟩
  · intro first second longer hFirst hSecond hLonger
    exact Value.apply_multiply_sum hFirst hSecond hLonger

/-- The longest repetition of a character of two bytes, the one that is too long by its last
copy, and a product with a sum. -/
theorem repetition_of_two_byte_character :
    let longest : Integer := ⟨134217728, by decide, by decide⟩
    let tooLong : Integer := ⟨134217729, by decide, by decide⟩
    let two : Integer := ⟨2, by decide, by decide⟩
    let three : Integer := ⟨3, by decide, by decide⟩
    (∃ repeated, Value.Repeats "é" longest repeated) ∧
    (¬Repeatable "é" tooLong.toInt ∧ Value.FailsToRepeat (.text "é") (.integer tooLong) ∧
      Value.FailsToRepeat (.integer tooLong) (.text "é")) ∧
    0 ≤ two.toInt ∧ 0 ≤ three.toInt ∧
    (Value.text "é").apply "*" ((Value.integer two).apply "+" (.integer three)) =
      .text "ééééé" ∧
    ((Value.text "é").apply "*" (.integer two)).apply "+"
      ((Value.text "é").apply "*" (.integer three)) = .text "ééééé" := by
  intro longest tooLong two three
  have general := repetition_is_bounded_and_symmetric "é"
  have tooLongFor : ¬Repeatable "é" tooLong.toInt := by decide
  have sum : (Value.text "é").apply "*" ((Value.integer two).apply "+" (.integer three)) =
      .text "ééééé" := by
    decide +kernel
  refine ⟨?_, ⟨tooLongFor, ?_⟩, by decide, by decide, sum, ?_⟩
  · exact (general.1 longest).1.mpr (by decide)
  · exact (general.1 tooLong).2 tooLongFor
  · exact general.2 two three "ééééé" (by decide) (by decide) sum

end OperatorCalculator
