import OperatorCalculator.Proofs.Text.Decimal
import OperatorCalculator.Value.Literal

/-
The items of a quoted text.

A quoted text is a sequence of items between double quotes.  An item is a character that
stands for itself, or an escape: one with a name, or one with the digits of a code point.
Reading takes an item off the front whatever is behind it.  So the texts that can be read are
those that are made of items, each is made of them in one way, and it stands for what they
stand for.
-/

set_option autoImplicit false

namespace OperatorCalculator

/-! ### Runs of characters -/

theorem takeWhile_append_of_head? {kind : Char → Bool} {run rest : List Char}
    (hRun : run.all kind = true) (hRest : rest.head?.any kind = false) :
    (run ++ rest).takeWhile kind = run := by
  rw [List.takeWhile_append_of_pos (List.all_eq_true.mp hRun)]
  cases rest with
  | nil => rw [List.takeWhile_nil, List.append_nil]
  | cons character rest =>
      have other : kind character = false := hRest
      rw [List.takeWhile_cons, other, if_neg Bool.false_ne_true, List.append_nil]

theorem dropWhile_append_of_head? {kind : Char → Bool} {run rest : List Char}
    (hRun : run.all kind = true) (hRest : rest.head?.any kind = false) :
    (run ++ rest).dropWhile kind = rest := by
  rw [List.dropWhile_append_of_pos (List.all_eq_true.mp hRun)]
  cases rest with
  | nil => rfl
  | cons character rest =>
      have other : kind character = false := hRest
      rw [List.dropWhile_cons, other, if_neg Bool.false_ne_true]

namespace Text

/-! ### Hexadecimal digits -/

/-- The digits in lower and in upper case, with their values. -/
def hexDigits : List (Char × Nat) :=
  "0123456789abcdef".toList.zipIdx ++ "0123456789ABCDEF".toList.zipIdx

/-- The digits are those of the number in positional notation, the highest one first. -/
def Denotes (digits : List Char) (number : Nat) : Prop :=
  ∃ values : List Nat, List.Forall₂ (fun digit value => (digit, value) ∈ hexDigits) digits values ∧
    Nat.ofDigits 16 values.reverse = number

theorem toNat_lt_of_hexDigit? {digit : Char} {value : Nat} (hDigit : hexDigit? digit = some value) :
    digit.toNat < 103 := by
  unfold hexDigit? at hDigit
  split at hDigit
  · rename_i decimal
    simp only [Char.isDigit, Bool.and_eq_true, decide_eq_true_eq, UInt32.le_iff_toNat_le] at decimal
    have below := decimal.2
    change digit.toNat ≤ 57 at below
    omega
  · split at hDigit
    · rename_i lower
      simp only [Bool.and_eq_true, decide_eq_true_eq, Char.le_def, UInt32.le_iff_toNat_le] at lower
      have below := lower.2
      change digit.toNat ≤ 102 at below
      omega
    · split at hDigit
      · rename_i upper
        simp only [Bool.and_eq_true, decide_eq_true_eq, Char.le_def, UInt32.le_iff_toNat_le]
          at upper
        have below := upper.2
        change digit.toNat ≤ 70 at below
        omega
      · contradiction

theorem hexDigit?_eq_some_iff {digit : Char} {value : Nat} :
    hexDigit? digit = some value ↔ (digit, value) ∈ hexDigits := by
  constructor
  · intro hDigit
    have listed := forall_of_codes
      (fun digit => (hexDigit? digit).all (fun value => (digit, value) ∈ hexDigits) = true)
      (by decide) (toNat_lt_of_hexDigit? hDigit)
    rw [hDigit] at listed
    exact of_decide_eq_true listed
  · intro member
    have valued : ∀ pair ∈ hexDigits, hexDigit? pair.1 = some pair.2 := by
      decide
    exact valued (digit, value) member

theorem readHexFrom?_eq_some_iff {start number : Nat} {digits : List Char} :
    readHexFrom? start digits = some number ↔
      ∃ values : List Nat,
        List.Forall₂ (fun digit value => (digit, value) ∈ hexDigits) digits values ∧
        16 ^ values.length * start + Nat.ofDigits 16 values.reverse = number := by
  induction digits generalizing start with
  | nil => simp [readHexFrom?, List.forall₂_nil_left_iff]
  | cons digit digits ih =>
      simp only [readHexFrom?, Option.bind_eq_some_iff, hexDigit?_eq_some_iff, ih,
        List.forall₂_cons_left_iff]
      have carry : ∀ value (values : List Nat),
          16 ^ (value :: values).length * start + Nat.ofDigits 16 (value :: values).reverse =
            16 ^ values.length * (16 * start + value) + Nat.ofDigits 16 values.reverse := by
        intro value values
        rw [List.reverse_cons, Nat.ofDigits_append, Nat.ofDigits_singleton, List.length_reverse,
          List.length_cons, Nat.pow_succ, Nat.mul_add, Nat.mul_assoc]
        omega
      constructor
      · rintro ⟨value, hDigit, values, hValues, rfl⟩
        exact ⟨value :: values, ⟨value, values, hDigit, hValues, rfl⟩, carry value values⟩
      · rintro ⟨_, ⟨value, values, hDigit, hValues, rfl⟩, rfl⟩
        exact ⟨value, hDigit, values, hValues, (carry value values).symm⟩

theorem readHex?_eq_some_iff {digits : List Char} {number : Nat} :
    readHex? digits = some number ↔ digits ≠ [] ∧ Denotes digits number := by
  rw [readHex?]
  cases digits with
  | nil => simp
  | cons digit digits =>
      rw [if_neg (by simp), readHexFrom?_eq_some_iff, and_iff_right (List.cons_ne_nil digit digits)]
      simp only [Denotes, Nat.mul_zero, Nat.zero_add]

theorem Denotes.all_isHexDigit {digits : List Char} {number : Nat}
    (hDenotes : Denotes digits number) : digits.all isHexDigit = true := by
  rcases hDenotes with ⟨values, hValues, -⟩
  induction hValues with
  | nil => rfl
  | cons hDigit _ ih =>
      rw [List.all_cons, isHexDigit, hexDigit?_eq_some_iff.mpr hDigit, ih]
      rfl

/-! ### Code points -/

theorem scalar?_eq_some_iff {number : Nat} {character : Char} :
    scalar? number = some character ↔ number = character.toNat := by
  rw [scalar?]
  constructor
  · intro hScalar
    split at hScalar
    · rename_i valid
      rw [← Option.some.inj hScalar, Char.ofNat, dif_pos valid]
      rfl
    · contradiction
  · rintro rfl
    have valid : character.toNat.isValidChar := character.valid
    rw [if_pos valid, Char.ofNat_toNat]

theorem scalarOfHex?_eq_some_iff {digits : List Char} {character : Char} :
    scalarOfHex? digits = some character ↔ digits ≠ [] ∧ Denotes digits character.toNat := by
  simp only [scalarOfHex?, Option.bind_eq_bind, Option.bind_eq_some_iff, readHex?_eq_some_iff,
    scalar?_eq_some_iff]
  constructor
  · rintro ⟨number, hNumber, rfl⟩
    exact hNumber
  · intro hDigits
    exact ⟨character.toNat, hDigits, rfl⟩

theorem asciiOfHex?_eq_some_iff {digits : List Char} {character : Char} :
    asciiOfHex? digits = some character ↔
      (digits ≠ [] ∧ Denotes digits character.toNat) ∧ character.toNat ≤ 0x7f := by
  simp only [asciiOfHex?, Option.bind_eq_bind, Option.bind_eq_some_iff, readHex?_eq_some_iff]
  constructor
  · rintro ⟨number, hNumber, hSome⟩
    split at hSome
    · rename_i low
      obtain rfl := scalar?_eq_some_iff.mp hSome
      exact ⟨hNumber, Nat.le_of_lt_succ low⟩
    · contradiction
  · rintro ⟨hDigits, low⟩
    refine ⟨character.toNat, hDigits, ?_⟩
    rw [if_pos (Nat.lt_succ_of_le low)]
    exact scalar?_eq_some_iff.mpr rfl

/-! ### Items -/

/-- The escapes that have a name, and what they stand for. -/
def namedEscapes : List (Char × Char) :=
  [('n', '\n'), ('t', '\t'), ('r', '\r'), ('0', '\x00'), ('\\', '\\'), ('"', '"'), ('\'', '\'')]

/-- What stands for one character between the double quotes. -/
inductive Item : List Char → Char → Prop
  | plain {character : Char} (hQuote : character ≠ '"') (hBackslash : character ≠ '\\') :
      Item [character] character
  | named {name character : Char} (hName : (name, character) ∈ namedEscapes) :
      Item ['\\', name] character
  | two {high low character : Char} (hDigits : Denotes [high, low] character.toNat)
      (hAscii : character.toNat ≤ 0x7f) : Item ['\\', 'x', high, low] character
  | four {first second third fourth character : Char}
      (hDigits : Denotes [first, second, third, fourth] character.toNat) :
      Item ['\\', 'u', first, second, third, fourth] character
  | braced {digits : List Char} {character : Char} (hSome : 1 ≤ digits.length)
      (hShort : digits.length ≤ 6) (hDigits : Denotes digits character.toNat) :
      Item ('\\' :: 'u' :: '{' :: (digits ++ ['}'])) character

/-- An item is taken off the front, whatever is behind it. -/
theorem Item.readItem? {text : List Char} {character : Char} (hItem : Item text character)
    (rest : List Char) : readItem? (text ++ rest) = some (character, rest) := by
  cases hItem with
  | plain hQuote hBackslash =>
      rw [List.singleton_append, Text.readItem?]
      · exact hQuote
      · exact hBackslash
  | named hName =>
      simp only [namedEscapes, List.mem_cons, Prod.mk.injEq, List.not_mem_nil, or_false] at hName
      rcases hName with
        ⟨rfl, rfl⟩ | ⟨rfl, rfl⟩ | ⟨rfl, rfl⟩ | ⟨rfl, rfl⟩ | ⟨rfl, rfl⟩ | ⟨rfl, rfl⟩ | ⟨rfl, rfl⟩
      all_goals rfl
  | @two high low _ hDigits hAscii =>
      have read : asciiOfHex? [high, low] = some character :=
        asciiOfHex?_eq_some_iff.mpr ⟨⟨List.cons_ne_nil _ _, hDigits⟩, hAscii⟩
      simp only [List.cons_append, List.nil_append, Text.readItem?, readEscape?, read,
        Option.map_some]
  | @four first second third fourth _ hDigits =>
      have read : scalarOfHex? [first, second, third, fourth] = some character :=
        scalarOfHex?_eq_some_iff.mpr ⟨List.cons_ne_nil _ _, hDigits⟩
      have noBrace : first ≠ '{' := by
        rintro rfl
        have impossible := hDigits.all_isHexDigit
        contradiction
      simp only [List.cons_append, List.nil_append]
      rw [Text.readItem?, readEscape?, read, Option.map_some]
      exact noBrace
  | @braced digits _ hSome hShort hDigits =>
      have read : scalarOfHex? digits = some character :=
        scalarOfHex?_eq_some_iff.mpr ⟨List.length_pos_iff.mp hSome, hDigits⟩
      have closes : ('}' :: rest).head?.any isHexDigit = false := rfl
      simp only [List.cons_append, List.append_assoc, List.nil_append]
      rw [Text.readItem?, readEscape?, readBraced?,
        takeWhile_append_of_head? hDigits.all_isHexDigit closes,
        dropWhile_append_of_head? hDigits.all_isHexDigit closes]
      simp only [if_pos hShort, read, Option.map_some]

theorem item_of_readBraced? {characters rest : List Char} {character : Char}
    (hRead : readBraced? characters = some (character, rest)) :
    ∃ text, Item ('\\' :: 'u' :: '{' :: text) character ∧ characters = text ++ rest := by
  have whole := List.takeWhile_append_dropWhile (p := isHexDigit) (l := characters)
  unfold readBraced? at hRead
  split at hRead
  · rename_i behind hBehind
    rw [hBehind] at whole
    simp only at hRead
    split at hRead
    · rename_i hShort
      rcases Option.map_eq_some_iff.mp hRead with ⟨found, hFound, hPair⟩
      cases hPair
      rcases scalarOfHex?_eq_some_iff.mp hFound with ⟨hSome, hDigits⟩
      refine ⟨characters.takeWhile isHexDigit ++ ['}'],
        .braced (List.length_pos_iff.mpr hSome) hShort hDigits, ?_⟩
      rw [List.append_assoc, List.singleton_append, whole]
    · contradiction
  · contradiction

theorem item_of_readEscape? {characters rest : List Char} {character : Char}
    (hRead : readEscape? characters = some (character, rest)) :
    ∃ text, Item ('\\' :: text) character ∧ characters = text ++ rest := by
  unfold readEscape? at hRead
  split at hRead
  case h_8 high low behind =>
    rcases Option.map_eq_some_iff.mp hRead with ⟨found, hFound, hPair⟩
    cases hPair
    rcases asciiOfHex?_eq_some_iff.mp hFound with ⟨⟨_, hDigits⟩, hAscii⟩
    exact ⟨['x', high, low], .two hDigits hAscii, rfl⟩
  case h_9 behind =>
    rcases item_of_readBraced? hRead with ⟨text, hItem, rfl⟩
    exact ⟨'u' :: '{' :: text, hItem, rfl⟩
  case h_10 first second third fourth behind _ =>
    rcases Option.map_eq_some_iff.mp hRead with ⟨found, hFound, hPair⟩
    cases hPair
    rcases scalarOfHex?_eq_some_iff.mp hFound with ⟨_, hDigits⟩
    exact ⟨['u', first, second, third, fourth], .four hDigits, rfl⟩
  case h_11 => contradiction
  all_goals
    cases hRead
    exact ⟨[_], .named (by decide), rfl⟩

theorem item_of_readItem? {characters rest : List Char} {character : Char}
    (hRead : readItem? characters = some (character, rest)) :
    ∃ text, Item text character ∧ characters = text ++ rest := by
  unfold readItem? at hRead
  split at hRead
  case h_1 => contradiction
  case h_2 => contradiction
  case h_3 behind =>
    rcases item_of_readEscape? hRead with ⟨text, hItem, rfl⟩
    exact ⟨'\\' :: text, hItem, rfl⟩
  case h_4 hQuote hBackslash =>
    cases hRead
    refine ⟨[character], .plain ?_ ?_, rfl⟩
    · rintro rfl
      exact hQuote rfl
    · rintro rfl
      exact hBackslash rfl

/-! ### Sequences of items -/

theorem decodeItems?_closing : decodeItems? ['"'] = some [] := by
  rw [decodeItems?]
  exact if_pos rfl

theorem decodeItems?_of_readItem? {characters rest : List Char} {character : Char}
    (hRead : readItem? characters = some (character, rest)) :
    decodeItems? characters = (decodeItems? rest).map (character :: ·) := by
  have hOpen : characters ≠ ['"'] := by
    rintro rfl
    contradiction
  rw [decodeItems?, if_neg hOpen]
  split
  · rename_i hNone
    rw [hRead] at hNone
    contradiction
  · rename_i found behind hFound
    rw [hRead] at hFound
    cases hFound
    rfl

variable {items : List (List Char × Char)}

theorem decodeItems?_of_items (hItems : ∀ item ∈ items, Item item.1 item.2) :
    decodeItems? (items.flatMap Prod.fst ++ ['"']) = some (items.map Prod.snd) := by
  induction items with
  | nil => exact decodeItems?_closing
  | cons item items ih =>
      rcases List.forall_mem_cons.mp hItems with ⟨hItem, others⟩
      rw [List.flatMap_cons, List.append_assoc, decodeItems?_of_readItem? (hItem.readItem? _),
        ih others, Option.map_some, List.map_cons]

theorem exists_items_of_decodeItems? {characters decoded : List Char}
    (hDecode : decodeItems? characters = some decoded) :
    ∃ items : List (List Char × Char), (∀ item ∈ items, Item item.1 item.2) ∧
      characters = items.flatMap Prod.fst ++ ['"'] ∧ decoded = items.map Prod.snd := by
  induction characters using decodeItems?.induct generalizing decoded with
  | case1 =>
      rw [decodeItems?_closing] at hDecode
      cases hDecode
      exact ⟨[], List.forall_mem_nil _, rfl, rfl⟩
  | case2 characters hOpen hNone =>
      rw [decodeItems?, if_neg hOpen] at hDecode
      split at hDecode
      · contradiction
      · rename_i hSome
        rw [hNone] at hSome
        contradiction
  | case3 characters hOpen character rest hRead ih =>
      rw [decodeItems?_of_readItem? hRead] at hDecode
      rcases Option.map_eq_some_iff.mp hDecode with ⟨others, hOthers, rfl⟩
      rcases ih hOthers with ⟨items, hItems, rfl, rfl⟩
      rcases item_of_readItem? hRead with ⟨text, hItem, rfl⟩
      refine ⟨(text, character) :: items, List.forall_mem_cons.mpr ⟨hItem, hItems⟩, ?_, rfl⟩
      rw [List.flatMap_cons, List.append_assoc]

/-- Items are told apart from the front on, since none of them begins with the closing quote and
each leaves what is behind it. -/
theorem items_unique {others : List (List Char × Char)}
    (hItems : ∀ item ∈ items, Item item.1 item.2) (hOthers : ∀ item ∈ others, Item item.1 item.2)
    (same : items.flatMap Prod.fst ++ ['"'] = others.flatMap Prod.fst ++ ['"']) :
    items = others := by
  induction items generalizing others with
  | nil =>
      cases others with
      | nil => rfl
      | cons other others =>
          have read := (hOthers other List.mem_cons_self).readItem?
            (others.flatMap Prod.fst ++ ['"'])
          rw [List.flatMap_cons, List.append_assoc] at same
          rw [← same] at read
          contradiction
  | cons item items ih =>
      have read := (hItems item List.mem_cons_self).readItem? (items.flatMap Prod.fst ++ ['"'])
      rw [List.flatMap_cons, List.append_assoc] at same
      cases others with
      | nil =>
          rw [same] at read
          contradiction
      | cons other others =>
          have otherRead := (hOthers other List.mem_cons_self).readItem?
            (others.flatMap Prod.fst ++ ['"'])
          rw [List.flatMap_cons, List.append_assoc] at same
          rw [same, otherRead] at read
          rcases Prod.mk.inj (Option.some.inj read) with ⟨sameCharacter, sameRest⟩
          rw [sameRest] at same
          have sameText := List.append_cancel_right same
          rw [ih (List.forall_mem_cons.mp hItems).2 (List.forall_mem_cons.mp hOthers).2
            sameRest.symm, Prod.ext sameText sameCharacter.symm]

/-- The characters are those of the items, one after the other, between double quotes. -/
structure Encloses (characters : List Char) (items : List (List Char × Char)) : Prop where
  split : characters = '"' :: (items.flatMap Prod.fst ++ ['"'])
  areItems : ∀ item ∈ items, Item item.1 item.2

theorem decode?_eq_some_iff {characters decoded : List Char} :
    decode? characters = some decoded ↔
      ∃ items, Encloses characters items ∧ decoded = items.map Prod.snd := by
  constructor
  · intro hDecode
    unfold decode? at hDecode
    split at hDecode
    · rcases exists_items_of_decodeItems? hDecode with ⟨items, hItems, rfl, hDecoded⟩
      exact ⟨items, ⟨rfl, hItems⟩, hDecoded⟩
    · contradiction
  · rintro ⟨items, ⟨rfl, hItems⟩, rfl⟩
    exact decodeItems?_of_items hItems

theorem Encloses.unique {characters : List Char} {others : List (List Char × Char)}
    (hItems : Encloses characters items) (hOthers : Encloses characters others) :
    items = others :=
  items_unique hItems.areItems hOthers.areItems
    (List.cons.inj (hItems.split.symm.trans hOthers.split)).2

end Text

/-- A token is read as a text exactly if it is a sequence of items between double quotes.  It is
cut into items in one way, and the text is what the items stand for, one after the other.  Any
other token is not read as a text. -/
theorem texts_are_sequences_of_items (token : String) :
    (∀ text : String, Value.textLiteral? token = some text ↔
      ∃ items, Text.Encloses token.toList items ∧ text.toList = items.map Prod.snd) ∧
    (∀ items others, Text.Encloses token.toList items → Text.Encloses token.toList others →
      items = others) ∧
    (Value.textLiteral? token = none ↔ ∀ items, ¬Text.Encloses token.toList items) := by
  have read : ∀ text : String, Value.textLiteral? token = some text ↔
      ∃ items, Text.Encloses token.toList items ∧ text.toList = items.map Prod.snd := by
    intro text
    rw [← Text.decode?_eq_some_iff, Value.textLiteral?, Option.map_eq_some_iff]
    constructor
    · rintro ⟨decoded, hDecoded, rfl⟩
      rwa [String.toList_ofList]
    · intro hDecoded
      exact ⟨text.toList, hDecoded, String.ofList_toList⟩
  refine ⟨read, fun items others hItems hOthers => hItems.unique hOthers, ?_⟩
  rw [Option.eq_none_iff_forall_ne_some]
  constructor
  · intro unread items hItems
    apply unread (String.ofList (items.map Prod.snd))
    rw [read, String.toList_ofList]
    exact ⟨items, hItems, rfl⟩
  · intro noItems text hText
    rcases (read text).mp hText with ⟨items, hItems, _⟩
    exact noItems items hItems

end OperatorCalculator
