import OperatorCalculator.Value.Basic

/-
Operations between two values.

There are three families: comparisons, arithmetic, and logical connectives.
Arithmetic on whole numbers is exact or fails; a sum of texts joins them, and the
product of a text and a count repeats it up to a fixed length.  An operator that
belongs to no family, or that means nothing between the two kinds, fails.
-/

set_option autoImplicit false

namespace OperatorCalculator

/-! ### The operations and their symbols -/

inductive Comparison where
  | equal | notEqual | less | lessOrEqual | greater | greaterOrEqual
  deriving DecidableEq

def Comparison.holds : Comparison → Ordering → Bool
  | .equal, order => order.isEq
  | .notEqual, order => order.isNe
  | .less, order => order.isLT
  | .lessOrEqual, order => order.isLE
  | .greater, order => order.isGT
  | .greaterOrEqual, order => order.isGE

inductive Arithmetic where
  | add | subtract | multiply | divide | remainder
  deriving DecidableEq

inductive Connective where
  | and | or
  deriving DecidableEq

inductive Operation where
  | compare (test : Comparison)
  | compute (operation : Arithmetic)
  | connect (connective : Connective)
  deriving DecidableEq

def Operation.ofSymbol? : String → Option Operation
  | "==" => some (.compare .equal)
  | "!=" => some (.compare .notEqual)
  | "<" => some (.compare .less)
  | "<=" => some (.compare .lessOrEqual)
  | ">" => some (.compare .greater)
  | ">=" => some (.compare .greaterOrEqual)
  | "+" => some (.compute .add)
  | "-" => some (.compute .subtract)
  | "*" => some (.compute .multiply)
  | "/" => some (.compute .divide)
  | "%" => some (.compute .remainder)
  | "&&" => some (.connect .and)
  | "||" => some (.connect .or)
  | _ => none

/-! ### Whole numbers -/

/-- The exact result of an arithmetic operation, if it fits.  Division rounds toward
zero.  A quotient that does not fit leaves its remainder without a value as well. -/
def Arithmetic.result? (operation : Arithmetic) (left right : Integer) : Option Integer :=
  match operation with
  | .add => Integer.ofInt? (left.toInt + right.toInt)
  | .subtract => Integer.ofInt? (left.toInt - right.toInt)
  | .multiply => Integer.ofInt? (left.toInt * right.toInt)
  | .divide => Integer.ofInt? (left.toInt.tdiv right.toInt)
  | .remainder =>
      (Integer.ofInt? (left.toInt.tdiv right.toInt)).bind fun _ =>
        Integer.ofInt? (left.toInt.tmod right.toInt)

def Arithmetic.divides : Arithmetic → Bool
  | .divide | .remainder => true
  | .add | .subtract | .multiply => false

/-! ### Repetition -/

/-- The number of bytes that a repeated text may have at most. -/
def longestRepetition : Nat := 268435456

/-- A number of copies of a text, one after the other, by doubling. -/
def copies (characters : String) (count : Nat) : String :=
  if _isZero : count = 0 then
    ""
  else
    let half := copies characters (count / 2)
    if count % 2 = 0 then half ++ half else half ++ half ++ characters
termination_by count
decreasing_by omega

/-- The copies of a text, if their number is not negative and they are not too long. -/
def repeat? (characters : String) (count : Integer) : Option String :=
  if 0 ≤ count.toInt ∧ characters.utf8ByteSize * count.toInt.toNat ≤ longestRepetition then
    some (copies characters count.toInt.toNat)
  else
    none

/-! ### Values -/

namespace Value

def illegal (left : Value) (operator : String) (right : Value) : Value :=
  .failure (.illegalOperation left.render operator right.render)

def onIntegers (left : Integer) (operator : String) (right : Integer) : Value :=
  match Operation.ofSymbol? operator with
  | some (.compare test) => .boolean (test.holds (compare left.toInt right.toInt))
  | some (.compute operation) =>
      if operation.divides && right.toInt == 0 then
        .failure (.divisionByZero (toString left.toInt) operator (toString right.toInt))
      else
        match operation.result? left right with
        | some result => .integer result
        | none =>
            .failure (.integerOverflow (toString left.toInt) operator (toString right.toInt))
  | _ => illegal (.integer left) operator (.integer right)

def onBooleans (left : Bool) (operator : String) (right : Bool) : Value :=
  match Operation.ofSymbol? operator with
  | some (.connect .and) => .boolean (left && right)
  | some (.connect .or) => .boolean (left || right)
  | some (.compare .equal) => .boolean (left == right)
  | some (.compare .notEqual) => .boolean (left != right)
  | _ => illegal (.boolean left) operator (.boolean right)

/-- The result of an operation on texts.  They are compared by code points, first
difference first, which is also the order of their bytes. -/
def onTexts (left : String) (operator : String) (right : String) : Value :=
  match Operation.ofSymbol? operator with
  | some (.compare test) => .boolean (test.holds (compare left right))
  | some (.compute .add) => .text (left ++ right)
  | _ => illegal (.text left) operator (.text right)

/-- The result of an operation between a text and a whole number.  Only the product
means something; `left` and `right` are the operands as they stood. -/
def onTextAndCount (characters : String) (count : Integer)
    (left : Value) (operator : String) (right : Value) : Value :=
  match Operation.ofSymbol? operator with
  | some (.compute .multiply) =>
      match repeat? characters count with
      | some repeated => .text repeated
      | none => .failure (.invalidRepeatCount left.render right.render)
  | _ => illegal left operator right

/-- The value of an operator between two values.  A failure on the left comes first,
then one on the right. -/
def apply (left : Value) (operator : String) (right : Value) : Value :=
  match left, right with
  | .failure cause, _ => .failure cause
  | _, .failure cause => .failure cause
  | .integer first, .integer second => onIntegers first operator second
  | .boolean first, .boolean second => onBooleans first operator second
  | .text first, .text second => onTexts first operator second
  | .integer count, .text characters =>
      onTextAndCount characters count left operator right
  | .text characters, .integer count =>
      onTextAndCount characters count left operator right
  | _, _ => illegal left operator right

theorem apply_of_isFailure_left {left : Value} (hLeft : left.isFailure = true)
    (operator : String) (right : Value) : left.apply operator right = left := by
  cases left with
  | failure cause => rfl
  | integer number => contradiction
  | boolean truth => contradiction
  | text characters => contradiction

theorem apply_of_isFailure_right {left right : Value} (hLeft : left.isFailure = false)
    (operator : String) (hRight : right.isFailure = true) :
    left.apply operator right = right := by
  cases right with
  | failure cause =>
      cases left with
      | failure other => contradiction
      | integer number => rfl
      | boolean truth => rfl
      | text characters => rfl
  | integer number => contradiction
  | boolean truth => contradiction
  | text characters => contradiction

end Value
end OperatorCalculator
