import OperatorCalculator.Proofs.Text.Items

/-
Printed values read back.

What the printed form of a value shows is the value itself, so reading it as a literal
loses nothing.  For a text this rests on one item at a time: whatever a character is
escaped to is an item that stands for it.  It does not matter which characters are concealed,
since every code point can be written with braces and read back.
-/

set_option autoImplicit false

namespace OperatorCalculator

/-! ### Quoted text -/

namespace Text

theorem denotes_toDigits (number : Nat) : Denotes (Nat.toDigits 16 number) number :=
  (readHex?_eq_some_iff.mp (readHex?_toDigits number)).2

theorem length_toDigits_toNat_le (character : Char) :
    (Nat.toDigits 16 character.toNat).length ≤ 6 := by
  have valid : character.toNat.isValidChar := character.valid
  apply (Nat.length_toDigits_le_iff (by decide) (by decide)).mpr
  rcases valid with low | ⟨_, high⟩
  · omega
  · omega

/-- An escaped character is an item that stands for it. -/
theorem item_escape (concealed : Char → Bool) (character : Char) :
    Item (escape concealed character) character := by
  unfold escape
  split
  case h_7 _ _ _ _ hQuote hBackslash =>
    cases concealed character with
    | true =>
        have some : 1 ≤ (Nat.toDigits 16 character.toNat).length := Nat.length_toDigits_pos
        exact .braced some (length_toDigits_toNat_le character) (denotes_toDigits character.toNat)
    | false => exact .plain hQuote hBackslash
  all_goals exact .named (by decide)

theorem decode?_encode (concealed : Char → Bool) (characters : List Char) :
    decode? (encode concealed characters) = some characters := by
  rw [decode?_eq_some_iff]
  refine ⟨characters.map fun character => (escape concealed character, character), ⟨?_, ?_⟩, ?_⟩
  · rw [encode, List.flatMap_map]
    rfl
  · rw [List.forall_mem_map]
    exact fun character _ => item_escape concealed character
  · rw [List.map_map]
    exact (List.map_id characters).symm

/-! ### Whole numbers -/

theorem readSigned?_of_quote {characters : List Char} (hQuote : characters.head? = some '"') :
    readSigned? characters = none := by
  cases characters with
  | nil => contradiction
  | cons first rest =>
      rw [Option.some.inj hQuote]
      rfl

end Text

/-! ### Values -/

namespace Value

theorem integerLiteral?_toString (number : Integer) :
    integerLiteral? (toString number.toInt) = some number := by
  rw [integerLiteral?, Text.readSigned?_eq_some_iff.mpr (Text.signed_toString number.toInt)]
  exact Integer.ofInt?_eq_some_iff.mpr rfl

theorem booleanLiteral?_of_quote {token : String} (hQuote : token.toList.head? = some '"') :
    booleanLiteral? token = none := by
  have apart : ∀ words : List String, words.all (·.toList.head? != some '"') = true →
      token ∉ words := by
    intro words hWords member
    have other := List.all_eq_true.mp hWords token member
    rw [hQuote] at other
    contradiction
  rw [booleanLiteral?, if_neg (apart _ (by decide)), if_neg (apart _ (by decide))]

theorem integerLiteral?_of_quote {token : String} (hQuote : token.toList.head? = some '"') :
    integerLiteral? token = none := by
  rw [integerLiteral?, Text.readSigned?_of_quote hQuote]
  rfl

/-- What begins with a double quote is read as a quoted text or not at all. -/
theorem ofLiteral_of_quote {token : String} (hQuote : token.toList.head? = some '"') :
    ofLiteral token =
      ((textLiteral? token).map Value.text).getD (.failure (.illegalLiteral token)) := by
  rw [ofLiteral, integerLiteral?_of_quote hQuote, booleanLiteral?_of_quote hQuote]
  cases textLiteral? token with
  | none => rfl
  | some characters => rfl

theorem textLiteral?_encode (concealed : Char → Bool) (characters : String) :
    textLiteral? (String.ofList (Text.encode concealed characters.toList)) =
      some characters := by
  rw [textLiteral?, String.toList_ofList, Text.decode?_encode, Option.map_some,
    String.ofList_toList]

theorem ofLiteral_encode (concealed : Char → Bool) (characters : String) :
    ofLiteral (String.ofList (Text.encode concealed characters.toList)) =
      .text characters := by
  have hQuote : (String.ofList (Text.encode concealed characters.toList)).toList.head? =
      some '"' := by
    rw [String.toList_ofList]
    rfl
  rw [ofLiteral_of_quote hQuote, textLiteral?_encode]
  rfl

theorem ofLiteral_render {value : Value} (hValue : value.isFailure = false) :
    ofLiteral value.render = value := by
  cases value with
  | integer number =>
      rw [render, ofLiteral, integerLiteral?_toString]
  | boolean truth =>
      cases truth with
      | false => decide
      | true => decide
  | text characters => exact ofLiteral_encode Text.isConcealed characters
  | failure cause => contradiction

end Value

/-- Every value but a failure reads back from its printed form, and every text from any
quoted form of it, whatever the characters that are written by their code points. -/
theorem printed_values_read_back :
    (∀ value : Value, value.isFailure = false → Value.ofLiteral value.render = value) ∧
      ∀ (concealed : Char → Bool) (characters : String),
        Value.textLiteral? (String.ofList (Text.encode concealed characters.toList)) =
            some characters ∧
          Value.ofLiteral (String.ofList (Text.encode concealed characters.toList)) =
            .text characters := by
  constructor
  · intro value hValue
    exact Value.ofLiteral_render hValue
  · intro concealed characters
    exact ⟨Value.textLiteral?_encode concealed characters,
      Value.ofLiteral_encode concealed characters⟩

/-- The least whole number, and a text with quotes, a backslash, a null character and
concealed characters, one of them outside the basic plane. -/
theorem printed_values_read_back_with_escapes :
    let least := Value.integer ⟨-9223372036854775808, by decide, by decide⟩
    let text := Value.text
      ("'\"\\\x00\u200b" ++ String.singleton (Char.ofNat 0xe0001))
    (least.isFailure = false ∧ least.render = "-9223372036854775808" ∧
        Value.ofLiteral least.render = least) ∧
      text.isFailure = false ∧
        text.render = "\"'\\\"\\\\\\0\\u\x7b200b\x7d\\u\x7be0001\x7d\"" ∧
        Value.ofLiteral text.render = text := by
  intro least text
  refine ⟨⟨rfl, by decide +kernel, ?_⟩, rfl, by decide +kernel, ?_⟩
  · exact printed_values_read_back.1 least rfl
  · exact printed_values_read_back.1 text rfl

end OperatorCalculator
