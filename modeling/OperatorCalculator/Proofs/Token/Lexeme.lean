import OperatorCalculator.PrecedenceTable.Entry
import OperatorCalculator.Proofs.Token.Cuts
import OperatorCalculator.Proofs.Token.Quoted

/-
Lexemes in front of other text.

What a scanner takes off the front depends on what follows: a word or a run of symbols
goes on for as long as it can.  This module says when a given word, operator, sign or
quoted text is taken as it stands, and what the scanner makes of a lexeme behind a gap.
-/

set_option autoImplicit false

namespace OperatorCalculator

open Text (byteLength)

/-! ### Classes of characters exclude one another -/

theorem isWordCharacter_eq_false_of_isGap {character : Char}
    (hGap : isGap character = true) : isWordCharacter character = false := by
  have low : character.toNat < 33 := by
    simp only [isGap, decide_eq_true_eq] at hGap
    omega
  exact Text.forall_of_codes (fun character => isWordCharacter character = false) (by decide) low

theorem isSymbol_eq_false_of_isGap {character : Char} (hGap : isGap character = true) :
    isSymbol character = false := by
  simp only [isSymbol, hGap, Bool.not_true, Bool.false_and]

theorem isSymbol_eq_false_of_isWordCharacter {character : Char}
    (hWord : isWordCharacter character = true) : isSymbol character = false := by
  simp only [isSymbol, hWord, Bool.not_true, Bool.and_false, Bool.false_and]

theorem isGap_eq_false_of_isWordCharacter {character : Char}
    (hWord : isWordCharacter character = true) : isGap character = false := by
  cases hGap : isGap character with
  | false => rfl
  | true =>
      rw [isWordCharacter_eq_false_of_isGap hGap] at hWord
      contradiction

theorem isGap_eq_false_of_isSymbol {character : Char} (hSymbol : isSymbol character = true) :
    isGap character = false := by
  cases hGap : isGap character with
  | false => rfl
  | true =>
      rw [isSymbol_eq_false_of_isGap hGap] at hSymbol
      contradiction

theorem isWordCharacter_eq_false_of_isSymbol {character : Char}
    (hSymbol : isSymbol character = true) : isWordCharacter character = false := by
  cases hWord : isWordCharacter character with
  | false => rfl
  | true =>
      rw [isSymbol_eq_false_of_isWordCharacter hWord] at hSymbol
      contradiction

theorem head?_any_eq_false_of_isGap {characters : List Char} {kind : Char → Bool}
    (hClass : ∀ character, isGap character = true → kind character = false)
    (hGap : characters.head?.all isGap = true) : characters.head?.any kind = false := by
  cases characters with
  | nil => rfl
  | cons character rest => exact hClass character hGap

theorem head?_append_of_word {word : List Char} (hSome : word ≠ [])
    (hWord : word.all isWordCharacter = true) (rest : List Char) :
    (word ++ rest).head?.any isGap = false ∧ (word ++ rest).head?.any isSymbol = false := by
  cases word with
  | nil => contradiction
  | cons first word =>
      have hFirst : isWordCharacter first = true := (Bool.and_eq_true_iff.mp hWord).1
      exact ⟨isGap_eq_false_of_isWordCharacter hFirst,
        isSymbol_eq_false_of_isWordCharacter hFirst⟩

theorem head?_append_of_symbols {symbols : List Char} (hSome : symbols ≠ [])
    (hSymbols : symbols.all isSymbol = true) (rest : List Char) :
    (symbols ++ rest).head?.any isGap = false ∧
      (symbols ++ rest).head?.any isWordCharacter = false := by
  cases symbols with
  | nil => contradiction
  | cons first symbols =>
      have hFirst : isSymbol first = true := (Bool.and_eq_true_iff.mp hSymbols).1
      exact ⟨isGap_eq_false_of_isSymbol hFirst, isWordCharacter_eq_false_of_isSymbol hFirst⟩

theorem head?_append_of_gap {gap characters : List Char} {kind : Char → Bool}
    (hClass : ∀ character, isGap character = true → kind character = false)
    (hGap : gap.all isGap = true) (hHead : characters.head?.any kind = false) :
    (gap ++ characters).head?.any kind = false := by
  cases gap with
  | nil => exact hHead
  | cons first gap => exact hClass first (Bool.and_eq_true_iff.mp hGap).1

/-! ### Lexemes that are taken as they stand -/

namespace Lexeme

variable (table : PrecedenceTable)

theorem read_of_not_quote {first : Char} (hFirst : first ≠ '"') (rest : List Char) :
    read table (first :: rest) =
      if isWordCharacter first then
        ⟨.word, first :: rest.takeWhile isWordCharacter, rest.dropWhile isWordCharacter⟩
      else
        ⟨.operator,
          (first :: rest).take (operatorLength table (first :: rest.takeWhile isSymbol)),
          (first :: rest).drop (operatorLength table (first :: rest.takeWhile isSymbol))⟩ := by
  rw [read]
  exact hFirst

theorem read_word {word rest : List Char} (hSome : word ≠ [])
    (hWord : word.all isWordCharacter = true) (hRest : rest.head?.any isWordCharacter = false) :
    read table (word ++ rest) = ⟨.word, word, rest⟩ := by
  cases word with
  | nil => contradiction
  | cons first word =>
      obtain ⟨hFirst, hMore⟩ := Bool.and_eq_true_iff.mp hWord
      have noQuote : first ≠ '"' := by
        rintro rfl
        contradiction
      rw [List.cons_append, read_of_not_quote table noQuote, if_pos hFirst,
        takeWhile_append_of_head? hMore hRest, dropWhile_append_of_head? hMore hRest]

theorem read_quoted {body : List Char} (hBody : Inert body) (rest : List Char) :
    read table ('"' :: (body ++ ['"']) ++ rest) = ⟨.quoted, '"' :: (body ++ ['"']), rest⟩ := by
  rw [List.cons_append, List.append_assoc, List.singleton_append, read,
    hBody.splitQuoted_append]

theorem read_symbols {run rest : List Char} (hSome : run ≠ [])
    (hRun : run.all isSymbol = true) (hRest : rest.head?.any isSymbol = false)
    (hLength : operatorLength table run = run.length) :
    read table (run ++ rest) = ⟨.operator, run, rest⟩ := by
  cases run with
  | nil => contradiction
  | cons first run =>
      obtain ⟨hFirst, hMore⟩ := Bool.and_eq_true_iff.mp hRun
      have noQuote : first ≠ '"' := by
        rintro rfl
        contradiction
      have noWord : ¬isWordCharacter first = true := by
        intro hWord
        rw [isSymbol_eq_false_of_isWordCharacter hWord] at hFirst
        contradiction
      rw [List.cons_append, read_of_not_quote table noQuote, if_neg noWord,
        takeWhile_append_of_head? hMore hRest, hLength, ← List.cons_append, List.take_left,
        List.drop_left]

end Lexeme

theorem append_ofList_cons (seen : String) (symbol : Char) (run : List Char) :
    seen ++ String.ofList (symbol :: run) = seen.push symbol ++ String.ofList run := by
  rw [String.ofList_cons, ← String.append_assoc, String.append_singleton]

/-- The last beginning of a run that is an operator is the longest. -/
theorem longestOperatorFrom_of_contains {table : PrecedenceTable} {run : List Char}
    {seen : String} (hSome : run ≠ [])
    (hContains : table.contains (seen ++ String.ofList run) = true) (count : Nat)
    (longest : Option Nat) :
    longestOperatorFrom table seen count longest run = some (count + run.length) := by
  induction run generalizing seen count longest with
  | nil => contradiction
  | cons symbol run ih =>
      rw [append_ofList_cons] at hContains
      rw [longestOperatorFrom]
      cases run with
      | nil =>
          rw [String.ofList_nil, String.append_empty] at hContains
          rw [longestOperatorFrom, if_pos hContains]
          rfl
      | cons next run =>
          rw [ih (List.cons_ne_nil next run) hContains]
          simp only [List.length_cons, Option.some.injEq]
          omega

theorem operatorLength_of_contains {table : PrecedenceTable} {run : List Char}
    (hSome : run ≠ []) (hContains : table.contains (String.ofList run) = true) :
    operatorLength table run = run.length := by
  rw [operatorLength, longestOperatorFrom_of_contains hSome (by rwa [String.empty_append]),
    Option.getD_some, Nat.zero_add]

theorem operatorLength_singleton (table : PrecedenceTable) (symbol : Char) :
    operatorLength table [symbol] = 1 := by
  rw [operatorLength, longestOperatorFrom, longestOperatorFrom]
  split
  · rfl
  · rfl

theorem isSymbol_of_sign {sign : Char} (hSign : sign = '+' ∨ sign = '-') :
    isSymbol sign = true := by
  rcases hSign with rfl | rfl
  · decide
  · decide

theorem Lexeme.read_sign (table : PrecedenceTable) {sign : Char} {rest : List Char}
    (hSign : sign = '+' ∨ sign = '-') (hRest : rest.head?.any isSymbol = false) :
    read table (sign :: rest) = ⟨.operator, [sign], rest⟩ := by
  apply read_symbols table (List.cons_ne_nil sign []) _ hRest
  · exact operatorLength_singleton table sign
  · rw [List.all_cons, isSymbol_of_sign hSign]
    rfl

/-! ### A lexeme behind a gap -/

namespace Scanner

variable {table : PrecedenceTable} {gap characters taken rest : List Char} {kind : TokenKind}

theorem next_of_read (offset : Nat) (hGap : gap.all isGap = true)
    (hHead : characters.head?.any isGap = false)
    (hRead : Lexeme.read table characters = ⟨kind, taken, rest⟩) :
    next table ⟨offset, gap ++ characters⟩ =
      (⟨kind, String.ofList taken, ⟨offset + byteLength gap,
          offset + byteLength gap + byteLength taken⟩⟩,
        ⟨offset + byteLength gap + byteLength taken, rest⟩) := by
  simp only [next, takeWhile_append_of_head? hGap hHead, dropWhile_append_of_head? hGap hHead,
    hRead]

theorem drain_of_read (offset : Nat) (hGap : gap.all isGap = true)
    (hHead : characters.head?.any isGap = false) (hKind : kind ≠ .endOfInput)
    (hRead : Lexeme.read table characters = ⟨kind, taken, rest⟩) :
    (drain table ⟨offset, gap ++ characters⟩).1 =
      ⟨kind, String.ofList taken, ⟨offset + byteLength gap,
          offset + byteLength gap + byteLength taken⟩⟩ ::
        (drain table ⟨offset + byteLength gap + byteLength taken, rest⟩).1 := by
  have step := next_of_read offset hGap hHead hRead
  have hToken : (next table ⟨offset, gap ++ characters⟩).1.isEnd = false := by
    rw [step]
    exact beq_eq_false_iff_ne.mpr hKind
  rw [drain_of_not_isEnd hToken, step]

theorem drain_word (table : PrecedenceTable) {word : List Char} (offset : Nat)
    (hGap : gap.all isGap = true) (hSome : word ≠ []) (hWord : word.all isWordCharacter = true)
    (hRest : rest.head?.any isWordCharacter = false) :
    (drain table ⟨offset, gap ++ (word ++ rest)⟩).1 =
      ⟨.word, String.ofList word, ⟨offset + byteLength gap,
          offset + byteLength gap + byteLength word⟩⟩ ::
        (drain table ⟨offset + byteLength gap + byteLength word, rest⟩).1 :=
  drain_of_read offset hGap (head?_append_of_word hSome hWord rest).1 TokenKind.noConfusion
    (Lexeme.read_word table hSome hWord hRest)

/-- An operator of the table is not divided, whatever else the table knows. -/
theorem drain_operator {operator : List Char} (offset : Nat) (hGap : gap.all isGap = true)
    (hText : PrecedenceTable.isOperatorText operator = true)
    (hContains : table.contains (String.ofList operator) = true)
    (hRest : rest.head?.any isSymbol = false) :
    (drain table ⟨offset, gap ++ (operator ++ rest)⟩).1 =
      ⟨.operator, String.ofList operator, ⟨offset + byteLength gap,
          offset + byteLength gap + byteLength operator⟩⟩ ::
        (drain table ⟨offset + byteLength gap + byteLength operator, rest⟩).1 := by
  obtain ⟨hSome, hSymbols⟩ := PrecedenceTable.isOperatorText_iff.mp hText
  exact drain_of_read offset hGap (head?_append_of_symbols hSome hSymbols rest).1
    TokenKind.noConfusion
    (Lexeme.read_symbols table hSome hSymbols hRest (operatorLength_of_contains hSome hContains))

theorem drain_nil (table : PrecedenceTable) (offset : Nat) :
    (drain table ⟨offset, []⟩).1 = [Token.endAt offset] := by
  rw [drain_of_isEnd rfl]
  rfl

end Scanner
end OperatorCalculator
