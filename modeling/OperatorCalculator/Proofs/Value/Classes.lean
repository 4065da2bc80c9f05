import OperatorCalculator.Proofs.Text.Decimal
import OperatorCalculator.Proofs.Value.Arithmetic
import OperatorCalculator.Proofs.Value.Printed

/-
Classes of literals.

A token stands for a whole number, for a truth value or for a text, or it is illegal.  Numerals
begin with a sign or a digit, the words for truth values with a letter, and quoted texts with a
quote.  So no token is in two classes, and it does not matter in which order they are tried.
-/

set_option autoImplicit false

namespace OperatorCalculator

/-! ### Readers that exclude each other -/

/-- Where no two results have a value, the first value does not depend on their order. -/
theorem findSome?_of_perm {result : Type} {results others : List (Option result)}
    (hPerm : results.Perm others)
    (hAlone : results.Pairwise fun first second => first = none ∨ second = none) :
    results.findSome? id = others.findSome? id := by
  induction hPerm with
  | nil => rfl
  | cons first _ ih =>
      rw [List.findSome?_cons, List.findSome?_cons, ih (List.pairwise_cons.mp hAlone).2]
  | swap first second rest =>
      have alone := (List.pairwise_cons.mp hAlone).1 first List.mem_cons_self
      rcases alone with rfl | rfl
      · rfl
      · cases second with
        | none => rfl
        | some value => rfl
  | trans hFirst _ ihFirst ihSecond =>
      have alone := hFirst.pairwise hAlone fun apart => apart.symm
      exact (ihFirst hAlone).trans (ihSecond alone)

namespace Value

/-- The ways to read a token, one for each class. -/
def readers : List (String → Option Value) :=
  [fun token => (integerLiteral? token).map .integer,
   fun token => (booleanLiteral? token).map .boolean,
   fun token => (textLiteral? token).map .text]

/-- The value that the first reader gives that can read the token; it is illegal if none can. -/
def firstRead (order : List (String → Option Value)) (token : String) : Value :=
  ((order.map fun reader => reader token).findSome? id).getD (.failure (.illegalLiteral token))

variable {token : String}

theorem firstRead_readers (token : String) : firstRead readers token = ofLiteral token := by
  simp only [firstRead, readers, ofLiteral, List.map_cons, List.map_nil]
  cases integerLiteral? token with
  | some number => rfl
  | none =>
      cases booleanLiteral? token with
      | some truth => rfl
      | none =>
          cases textLiteral? token with
          | some characters => rfl
          | none => rfl

/-! ### What is in each class -/

theorem integerLiteral?_eq_some_iff {number : Integer} :
    integerLiteral? token = some number ↔ Text.Signed token.toList number.toInt := by
  simp only [integerLiteral?, Option.bind_eq_bind, Option.bind_eq_some_iff,
    Text.readSigned?_eq_some_iff, Integer.ofInt?_eq_some_iff]
  constructor
  · rintro ⟨value, hNumeral, rfl⟩
    exact hNumeral
  · intro hNumeral
    exact ⟨number.toInt, hNumeral, rfl⟩

/-- The words for the truth values. -/
def words : Bool → List String
  | true => ["true", "True", "TRUE", "t", "T"]
  | false => ["false", "False", "FALSE", "f", "F"]

theorem booleanLiteral?_of_mem_words :
    ∀ truth, ∀ word ∈ words truth, booleanLiteral? word = some truth := by
  decide

theorem booleanLiteral?_eq_some_iff {truth : Bool} :
    booleanLiteral? token = some truth ↔ token ∈ words truth := by
  constructor
  · intro hRead
    unfold booleanLiteral? at hRead
    split at hRead
    · rename_i member
      cases hRead
      exact member
    · split at hRead
      · rename_i member
        cases hRead
        exact member
      · contradiction
  · intro member
    exact booleanLiteral?_of_mem_words truth token member

/-! ### No token is in two classes -/

theorem readSigned?_of_mem_words {truth : Bool} (hMember : token ∈ words truth) :
    Text.readSigned? token.toList = none := by
  have noNumeral : ∀ truth, ∀ word ∈ words truth, Text.readSigned? word.toList = none := by
    decide
  exact noNumeral truth token hMember

theorem head?_of_textLiteral? {characters : String}
    (hRead : textLiteral? token = some characters) : token.toList.head? = some '"' := by
  rcases Option.map_eq_some_iff.mp hRead with ⟨decoded, hDecoded, _⟩
  rcases Text.decode?_eq_some_iff.mp hDecoded with ⟨items, hItems, _⟩
  rw [hItems.split]
  rfl

theorem textLiteral?_of_mem_words {truth : Bool} (hMember : token ∈ words truth) :
    textLiteral? token = none := by
  cases hText : textLiteral? token with
  | none => rfl
  | some characters =>
      have noWord := booleanLiteral?_of_quote (head?_of_textLiteral? hText)
      rw [booleanLiteral?_eq_some_iff.mpr hMember] at noWord
      contradiction

theorem textLiteral?_of_signed {number : Int} (hNumeral : Text.Signed token.toList number) :
    textLiteral? token = none := by
  cases hText : textLiteral? token with
  | none => rfl
  | some characters =>
      have hRead := Text.readSigned?_eq_some_iff.mpr hNumeral
      rw [Text.readSigned?_of_quote (head?_of_textLiteral? hText)] at hRead
      contradiction

theorem not_mem_words_of_signed {number : Int} (hNumeral : Text.Signed token.toList number)
    (truth : Bool) : token ∉ words truth := by
  intro member
  have hRead := Text.readSigned?_eq_some_iff.mpr hNumeral
  rw [readSigned?_of_mem_words member] at hRead
  contradiction

/-! ### The order of the classes -/

theorem pairwise_readers (token : String) :
    (readers.map fun reader => reader token).Pairwise fun first second =>
      first = none ∨ second = none := by
  simp only [readers, List.map_cons, List.map_nil, List.pairwise_cons, List.mem_cons,
    List.not_mem_nil, or_false, forall_eq_or_imp, forall_eq, Option.map_eq_none_iff, false_imp_iff,
    implies_true, List.Pairwise.nil, and_true]
  refine ⟨⟨?_, ?_⟩, ?_⟩
  · cases hInteger : integerLiteral? token with
    | none => exact .inl rfl
    | some number =>
        right
        cases hBoolean : booleanLiteral? token with
        | none => rfl
        | some truth =>
            have hNumeral := integerLiteral?_eq_some_iff.mp hInteger
            exact absurd (booleanLiteral?_eq_some_iff.mp hBoolean)
              (not_mem_words_of_signed hNumeral truth)
  · cases hInteger : integerLiteral? token with
    | none => exact .inl rfl
    | some number => exact .inr (textLiteral?_of_signed (integerLiteral?_eq_some_iff.mp hInteger))
  · cases hBoolean : booleanLiteral? token with
    | none => exact .inl rfl
    | some truth =>
        exact .inr (textLiteral?_of_mem_words (booleanLiteral?_eq_some_iff.mp hBoolean))

theorem firstRead_of_perm {order : List (String → Option Value)} (hOrder : order.Perm readers)
    (token : String) : firstRead order token = ofLiteral token := by
  have results := hOrder.map fun reader => reader token
  rw [← firstRead_readers, firstRead, firstRead,
    findSome?_of_perm results.symm (pairwise_readers token)]

/-- A reader that can read a token decides what it is, since it can be tried first. -/
theorem ofLiteral_of_reader {front back : List (String → Option Value)}
    {reader : String → Option Value} {value : Value} (hReaders : readers = front ++ reader :: back)
    (hRead : reader token = some value) : ofLiteral token = value := by
  have first : (reader :: (front ++ back)).Perm readers := by
    rw [hReaders]
    exact List.perm_middle.symm
  rw [← firstRead_of_perm first, firstRead, List.map_cons, hRead]
  rfl

theorem ofLiteral_of_integerLiteral? {number : Integer}
    (hRead : integerLiteral? token = some number) : ofLiteral token = .integer number := by
  have atFront : readers = [] ++ readers := rfl
  exact ofLiteral_of_reader atFront (Option.map_eq_some_iff.mpr ⟨number, hRead, rfl⟩)

theorem ofLiteral_of_booleanLiteral? {truth : Bool}
    (hRead : booleanLiteral? token = some truth) : ofLiteral token = .boolean truth := by
  have behindIntegers : readers = readers.take 1 ++ readers.drop 1 := rfl
  exact ofLiteral_of_reader behindIntegers (Option.map_eq_some_iff.mpr ⟨truth, hRead, rfl⟩)

theorem ofLiteral_of_textLiteral? {characters : String}
    (hRead : textLiteral? token = some characters) : ofLiteral token = .text characters := by
  have behindBooleans : readers = readers.take 2 ++ readers.drop 2 := rfl
  exact ofLiteral_of_reader behindBooleans (Option.map_eq_some_iff.mpr ⟨characters, hRead, rfl⟩)

/-- What a token stands for, with the reason why it does. -/
inductive StandsFor (token : String) : Value → Prop
  | integer {number : Integer} (hNumeral : Text.Signed token.toList number.toInt) :
      StandsFor token (.integer number)
  | boolean {truth : Bool} (hWord : token ∈ words truth) : StandsFor token (.boolean truth)
  | text {characters : String} (hText : textLiteral? token = some characters) :
      StandsFor token (.text characters)
  | illegal (hInteger : integerLiteral? token = none) (hBoolean : booleanLiteral? token = none)
      (hText : textLiteral? token = none) : StandsFor token (.failure (.illegalLiteral token))

theorem standsFor_ofLiteral (token : String) : StandsFor token (ofLiteral token) := by
  cases hInteger : integerLiteral? token with
  | some number =>
      rw [ofLiteral_of_integerLiteral? hInteger]
      exact .integer (integerLiteral?_eq_some_iff.mp hInteger)
  | none =>
      cases hBoolean : booleanLiteral? token with
      | some truth =>
          rw [ofLiteral_of_booleanLiteral? hBoolean]
          exact .boolean (booleanLiteral?_eq_some_iff.mp hBoolean)
      | none =>
          cases hText : textLiteral? token with
          | some characters =>
              rw [ofLiteral_of_textLiteral? hText]
              exact .text hText
          | none =>
              rw [ofLiteral, hInteger, hBoolean, hText]
              exact .illegal hInteger hBoolean hText

theorem ofLiteral_eq_iff {value : Value} : ofLiteral token = value ↔ StandsFor token value := by
  constructor
  · rintro rfl
    exact standsFor_ofLiteral token
  · intro hValue
    cases hValue with
    | integer hNumeral =>
        exact ofLiteral_of_integerLiteral? (integerLiteral?_eq_some_iff.mpr hNumeral)
    | boolean hWord => exact ofLiteral_of_booleanLiteral? (booleanLiteral?_eq_some_iff.mpr hWord)
    | text hText => exact ofLiteral_of_textLiteral? hText
    | illegal hInteger hBoolean hText => rw [ofLiteral, hInteger, hBoolean, hText]

theorem integerLiteral?_eq_none_iff :
    integerLiteral? token = none ↔
      ∀ number, Text.Signed token.toList number → ¬Integer.InRange number := by
  constructor
  · intro hNone number hNumeral hRange
    rcases Integer.exists_ofInt?_of_inRange hRange with ⟨held, _, rfl⟩
    rw [integerLiteral?_eq_some_iff.mpr hNumeral] at hNone
    contradiction
  · intro outside
    cases hInteger : integerLiteral? token with
    | none => rfl
    | some number =>
        exact absurd number.inRange (outside number.toInt (integerLiteral?_eq_some_iff.mp hInteger))

theorem booleanLiteral?_eq_none_iff :
    booleanLiteral? token = none ↔ ∀ truth, token ∉ words truth := by
  rw [Option.eq_none_iff_forall_ne_some]
  exact forall_congr' fun truth => not_congr booleanLiteral?_eq_some_iff

end Value

/-- A numeral stands for its number, if that is in the range of whole numbers; the words for truth
values stand for these, and a text that can be unquoted for what is in the quotes.  Every other
token is illegal, and the message quotes it.  No token is in two of the classes, so they can be
tried in any order. -/
theorem literal_classes_are_exact_and_disjoint (token : String) :
    (∀ number : Int,
        (∃ held : Integer, held.toInt = number ∧ Value.ofLiteral token = .integer held) ↔
          Text.Signed token.toList number ∧ Integer.InRange number) ∧
      (∀ truth, Value.ofLiteral token = .boolean truth ↔ token ∈ Value.words truth) ∧
      (∀ characters,
        Value.ofLiteral token = .text characters ↔ Value.textLiteral? token = some characters) ∧
      ((∃ cause, Value.ofLiteral token = .failure cause ∧
          cause.message = "illegal literal '" ++ token ++ "'") ↔
        (∀ number, Text.Signed token.toList number → ¬Integer.InRange number) ∧
          (∀ truth, token ∉ Value.words truth) ∧ Value.textLiteral? token = none) ∧
      (∀ number, Text.Signed token.toList number →
        (∀ truth, token ∉ Value.words truth) ∧ Value.textLiteral? token = none) ∧
      (∀ truth, token ∈ Value.words truth → Value.textLiteral? token = none) ∧
      ∀ order, order.Perm Value.readers → Value.firstRead order token = Value.ofLiteral token := by
  refine ⟨fun number => ⟨?_, ?_⟩, fun truth => ⟨?_, ?_⟩, fun characters => ⟨?_, ?_⟩, ⟨?_, ?_⟩,
    ?_, ?_, ?_⟩
  · rintro ⟨held, rfl, hLiteral⟩
    cases Value.ofLiteral_eq_iff.mp hLiteral with
    | integer hNumeral => exact ⟨hNumeral, held.inRange⟩
  · rintro ⟨hNumeral, hRange⟩
    rcases Integer.exists_ofInt?_of_inRange hRange with ⟨held, _, rfl⟩
    exact ⟨held, rfl, Value.ofLiteral_eq_iff.mpr (.integer hNumeral)⟩
  · intro hLiteral
    cases Value.ofLiteral_eq_iff.mp hLiteral with
    | boolean hWord => exact hWord
  · intro hWord
    exact Value.ofLiteral_eq_iff.mpr (.boolean hWord)
  · intro hLiteral
    cases Value.ofLiteral_eq_iff.mp hLiteral with
    | text hText => exact hText
  · intro hText
    exact Value.ofLiteral_eq_iff.mpr (.text hText)
  · rintro ⟨cause, hLiteral, _⟩
    cases Value.ofLiteral_eq_iff.mp hLiteral with
    | illegal hInteger hBoolean hText =>
        exact ⟨Value.integerLiteral?_eq_none_iff.mp hInteger,
          Value.booleanLiteral?_eq_none_iff.mp hBoolean, hText⟩
  · rintro ⟨outside, noWord, hText⟩
    have hInteger := Value.integerLiteral?_eq_none_iff.mpr outside
    have hBoolean := Value.booleanLiteral?_eq_none_iff.mpr noWord
    exact ⟨_, Value.ofLiteral_eq_iff.mpr (.illegal hInteger hBoolean hText), rfl⟩
  · intro number hNumeral
    exact ⟨Value.not_mem_words_of_signed hNumeral, Value.textLiteral?_of_signed hNumeral⟩
  · intro truth hWord
    exact Value.textLiteral?_of_mem_words hWord
  · intro order hOrder
    exact Value.firstRead_of_perm hOrder token

/-- The least number is read from behind zeros, and also where texts are tried first. -/
theorem literal_classes_of_least_number_and_word :
    (∃ held : Integer, held.toInt = -9223372036854775808 ∧
        Value.ofLiteral "-0009223372036854775808" = .integer held) ∧
      Value.textLiteral? "-0009223372036854775808" = none ∧
      Value.readers.reverse.Perm Value.readers ∧
      Value.firstRead Value.readers.reverse "-0009223372036854775808" =
        Value.ofLiteral "-0009223372036854775808" ∧
      "True" ∈ Value.words true ∧ Value.textLiteral? "True" = none := by
  have numeral : Text.Signed "-0009223372036854775808".toList (-9223372036854775808) :=
    Text.readSigned?_eq_some_iff.mp (by decide)
  have word : "True" ∈ Value.words true := by decide
  have reversed := List.reverse_perm Value.readers
  rcases literal_classes_are_exact_and_disjoint "-0009223372036854775808" with
    ⟨integers, _, _, _, alone, _, anyOrder⟩
  rcases literal_classes_are_exact_and_disjoint "True" with ⟨_, _, _, _, _, wordAlone, _⟩
  exact ⟨(integers _).mpr ⟨numeral, by decide⟩, (alone _ numeral).2, reversed,
    anyOrder _ reversed, word, wordAlone true word⟩

end OperatorCalculator
