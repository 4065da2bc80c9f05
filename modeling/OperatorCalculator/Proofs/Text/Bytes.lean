import Mathlib.Data.List.Lex
import Mathlib.Data.String.Basic
import Mathlib.Tactic.SplitIfs

/-
Texts and their bytes.

A text is encoded character by character, in one to four bytes each.  No character but the newline
has the newline byte in its encoding.  A character that comes before another one in the order of
code points has an encoding that comes before it, whatever follows, so texts are in the same
order by their bytes and by their code points.
-/

set_option autoImplicit false

namespace OperatorCalculator

/-! ### Encodings -/

def bytesOf (text : String) : List UInt8 := text.toUTF8.data.toList

/-- The bytes encode some text. -/
def IsText (bytes : List UInt8) : Prop := ∃ text, bytesOf text = bytes

theorem toByteArray_bytesOf (text : String) : (bytesOf text).toByteArray = text.toUTF8 := by
  apply ByteArray.ext
  rw [bytesOf, List.data_toByteArray, Array.toArray_toList]

theorem bytesOf_ofList (characters : List Char) :
    bytesOf (String.ofList characters) = characters.flatMap String.utf8EncodeChar := by
  apply List.toByteArray_inj.mp
  rw [toByteArray_bytesOf, String.toUTF8_eq_toByteArray, String.toByteArray_ofList,
    List.utf8Encode]

theorem bytesOf_append (front back : String) :
    bytesOf (front ++ back) = bytesOf front ++ bytesOf back := by
  simp only [bytesOf, String.toUTF8_eq_toByteArray, String.toByteArray_append,
    ByteArray.data_append, Array.toList_append]

theorem isText_iff {bytes : List UInt8} :
    IsText bytes ↔ ∃ characters : List Char, characters.flatMap String.utf8EncodeChar = bytes := by
  constructor
  · rintro ⟨text, rfl⟩
    exact ⟨text.toList, by rw [← bytesOf_ofList, String.ofList_toList]⟩
  · rintro ⟨characters, rfl⟩
    exact ⟨String.ofList characters, bytesOf_ofList characters⟩

theorem IsText.append {front back : List UInt8} (hFront : IsText front) (hBack : IsText back) :
    IsText (front ++ back) := by
  rw [isText_iff] at hFront hBack ⊢
  rcases hFront with ⟨characters, rfl⟩
  rcases hBack with ⟨others, rfl⟩
  exact ⟨characters ++ others, List.flatMap_append⟩

theorem fromUTF8?_toByteArray_bytesOf (text : String) :
    String.fromUTF8? (bytesOf text).toByteArray = some text := by
  rw [toByteArray_bytesOf, String.fromUTF8?, String.toUTF8_eq_toByteArray,
    dif_pos text.isValidUTF8]
  rfl

theorem fromUTF8?_of_not_isText {bytes : List UInt8} (hBytes : ¬IsText bytes) :
    String.fromUTF8? bytes.toByteArray = none := by
  rw [String.fromUTF8?, dif_neg]
  rintro ⟨characters, hCharacters⟩
  exact hBytes (isText_iff.mpr ⟨characters, (List.toByteArray_inj.mp hCharacters).symm⟩)

/-- No character but the newline has the newline byte in its encoding. -/
theorem eq_newline_of_mem_utf8EncodeChar {character : Char}
    (member : (10 : UInt8) ∈ String.utf8EncodeChar character) : character = '\n' := by
  have code : ∀ number, (10 : UInt8) = UInt8.ofNat number ↔ number % 256 = 10 := by
    intro number
    rw [← UInt8.toNat_inj, UInt8.toNat_ofNat']
    exact eq_comm
  simp only [String.utf8EncodeChar] at member
  split at member
  · simp only [List.mem_singleton, code] at member
    have value : character.val.toNat = 10 := by omega
    exact Char.ext (UInt32.toNat_inj.mp value)
  · -- All bytes of a longer encoding have their highest bit set.
    split at member
    · simp only [List.mem_cons, List.not_mem_nil, or_false, code] at member
      omega
    · split at member
      · simp only [List.mem_cons, List.not_mem_nil, or_false, code] at member
        omega
      · simp only [List.mem_cons, List.not_mem_nil, or_false, code] at member
        omega

theorem newline_mem_bytesOf_iff {text : String} :
    (10 : UInt8) ∈ bytesOf text ↔ '\n' ∈ text.toList := by
  rw [← String.ofList_toList (s := text), bytesOf_ofList, String.toList_ofList, List.mem_flatMap]
  constructor
  · rintro ⟨character, member, inside⟩
    rwa [← eq_newline_of_mem_utf8EncodeChar inside]
  · intro member
    exact ⟨'\n', member, by decide⟩

/-! ### The order of encodings -/

/-- There is a first place where the lists differ, and the first of them has the smaller byte
there. -/
def DiffersBelow : List UInt8 → List UInt8 → Prop
  | byte :: rest, other :: others => byte < other ∨ byte = other ∧ DiffersBelow rest others
  | _, _ => False

theorem DiffersBelow.lex_append {bytes others : List UInt8} (hDiffers : DiffersBelow bytes others)
    (behind otherBehind : List UInt8) :
    List.Lex (· < ·) (bytes ++ behind) (others ++ otherBehind) := by
  induction bytes generalizing others with
  | nil => contradiction
  | cons byte rest ih =>
      cases others with
      | nil => contradiction
      | cons other others =>
          rcases hDiffers with smaller | ⟨rfl, later⟩
          · exact .rel smaller
          · exact .cons (ih later)

theorem ofNat_lt_ofNat_iff {first second : Nat} (hFirst : first < 256) (hSecond : second < 256) :
    UInt8.ofNat first < UInt8.ofNat second ↔ first < second := by
  rw [UInt8.lt_iff_toNat_lt, UInt8.toNat_ofNat', UInt8.toNat_ofNat', Nat.mod_eq_of_lt hFirst,
    Nat.mod_eq_of_lt hSecond]

theorem ofNat_eq_ofNat_iff {first second : Nat} (hFirst : first < 256) (hSecond : second < 256) :
    UInt8.ofNat first = UInt8.ofNat second ↔ first = second := by
  rw [← UInt8.toNat_inj, UInt8.toNat_ofNat', UInt8.toNat_ofNat', Nat.mod_eq_of_lt hFirst,
    Nat.mod_eq_of_lt hSecond]

/-- Of two numbers the smaller one has the smaller digit in base sixty-four where they first
differ, from the highest digit on. -/
theorem digits_of_lt {first second : Nat} (hOrder : first < second) :
    first / 262144 < second / 262144 ∨ first / 262144 = second / 262144 ∧
      (first / 4096 % 64 < second / 4096 % 64 ∨ first / 4096 % 64 = second / 4096 % 64 ∧
        (first / 64 % 64 < second / 64 % 64 ∨ first / 64 % 64 = second / 64 % 64 ∧
          first % 64 < second % 64)) := by
  have lowest : ∀ {low high : Nat}, low < high →
      low / 64 < high / 64 ∨ low / 64 = high / 64 ∧ low % 64 < high % 64 := by
    omega
  have twice : ∀ number : Nat, number / 4096 = number / 64 / 64 := by
    omega
  have thrice : ∀ number : Nat, number / 262144 = number / 64 / 64 / 64 := by
    omega
  rw [twice, twice, thrice, thrice]
  rcases lowest hOrder with higher | ⟨same, smaller⟩
  · rcases lowest higher with highest | ⟨same, smaller⟩
    · have first := lowest highest
      omega
    · omega
  · omega

theorem differsBelow_utf8EncodeChar {character other : Char} (hOrder : character < other) :
    DiffersBelow (String.utf8EncodeChar character) (String.utf8EncodeChar other) := by
  have order : character.val.toNat < other.val.toNat := hOrder
  have digits := digits_of_lt order
  have bounded : other.val.toNat < 1114112 := by
    have valid : other.val.toNat.isValidChar := other.valid
    rcases valid with low | ⟨_, high⟩
    · omega
    · exact high
  have leading : ∀ number < 1114112, number / 262144 % 8 = number / 262144 := by
    omega
  have first := leading character.val.toNat (by omega)
  have second := leading other.val.toNat bounded
  -- The first byte is larger the more bytes there are.  Among as many bytes, they are marks with
  -- the digits of the code point in base sixty-four, the highest one first.
  simp only [String.utf8EncodeChar]
  split_ifs
  all_goals
    simp (disch := omega) only [DiffersBelow, ofNat_lt_ofNat_iff, ofNat_eq_ofNat_iff]
    omega

/-- Lists of characters are written in their order. -/
def WritesInOrder {symbol : Type} [LT symbol] (write : List Char → List symbol) : Prop :=
  ∀ characters others : List Char, characters < others →
    List.Lex (· < ·) (write characters) (write others)

theorem writesInOrder_utf8EncodeChar :
    WritesInOrder fun characters => characters.flatMap String.utf8EncodeChar := by
  intro characters others hOrder
  induction hOrder with
  | @nil character rest =>
      change List.Lex (· < ·) [] (String.utf8EncodeChar character ++ _)
      cases hEncoding : String.utf8EncodeChar character with
      | nil => exact absurd hEncoding String.utf8EncodeChar_ne_nil
      | cons byte bytes => exact .nil
  | rel smaller => exact (differsBelow_utf8EncodeChar smaller).lex_append _ _
  | @cons character _ _ _ ih => exact ih.append_left _ (String.utf8EncodeChar character)

theorem writesInOrder_toNat : WritesInOrder fun characters => characters.map Char.toNat := by
  intro characters others hOrder
  induction hOrder with
  | nil => exact .nil
  | rel smaller => exact .rel smaller
  | cons _ ih => exact .cons ih

/-- What is written in order can be told from what is written. -/
theorem WritesInOrder.lex_iff {symbol : Type} [LT symbol]
    [Std.Asymm fun first second : symbol => first < second]
    {write : List Char → List symbol} (hWrite : WritesInOrder write)
    {characters others : List Char} :
    List.Lex (· < ·) (write characters) (write others) ↔ characters < others := by
  constructor
  · intro written
    rcases lt_trichotomy characters others with before | same | behind
    · exact before
    · rw [same] at written
      exact absurd written (List.lt_asymm written)
    · exact absurd written (List.lt_asymm (hWrite others characters behind))
  · exact hWrite characters others

theorem lex_bytesOf_iff {left right : String} :
    List.Lex (· < ·) (bytesOf left) (bytesOf right) ↔ left < right := by
  rw [String.lt_iff_toList_lt, ← writesInOrder_utf8EncodeChar.lex_iff, ← bytesOf_ofList,
    ← bytesOf_ofList, String.ofList_toList, String.ofList_toList]

theorem lex_codePoints_iff {left right : String} :
    List.Lex (· < ·) (left.toList.map Char.toNat) (right.toList.map Char.toNat) ↔
      left < right := by
  rw [String.lt_iff_toList_lt, ← writesInOrder_toNat.lex_iff]

end OperatorCalculator
