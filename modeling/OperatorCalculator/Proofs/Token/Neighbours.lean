import OperatorCalculator.Proofs.Token.Boundary

/-
What stands on both sides of a token.

A scanner that has come somewhere in an expression stands behind what it has read.  Its next
token lies behind that and a gap, and takes as much of the rest as it can.  No word goes on
across the places where a scanner stands, so a word has no character of a word on its left
either.
-/

set_option autoImplicit false

namespace OperatorCalculator

open Text (byteLength)

/-- No word goes on from one text into the other. -/
def Apart (front back : List Char) : Prop :=
  front.getLast?.any isWordCharacter = false ∨ back.head?.any isWordCharacter = false

theorem getLast?_any_eq_false {kind : Char → Bool} {characters : List Char}
    (hNone : ∀ character ∈ characters, kind character = false) :
    characters.getLast?.any kind = false := by
  cases hLast : characters.getLast? with
  | none => rfl
  | some last => exact hNone last (List.mem_of_getLast? hLast)

theorem Apart.append {back rest : List Char} (hApart : Apart back rest) (hSome : back ≠ [])
    (front : List Char) : Apart (front ++ back) rest := by
  unfold Apart
  rw [List.getLast?_append_of_ne_nil front hSome]
  exact hApart

theorem Apart.of_append {front text rest : List Char} (hApart : Apart front (text ++ rest)) :
    Apart front text := by
  rcases hApart with left | right
  · exact Or.inl left
  · exact Or.inr (Lexeme.head?_any_of_isPrefix right (List.prefix_append text rest))

/-- What ends in a gap ends no word. -/
theorem Apart.behind_gap {front gap text : List Char} (hGap : gap.all isGap = true)
    (hApart : Apart front (gap ++ text)) : Apart (front ++ gap) text := by
  by_cases hNothing : gap = []
  · rw [hNothing, List.nil_append] at hApart
    rw [hNothing, List.append_nil]
    exact hApart
  · apply Apart.append _ hNothing
    apply Or.inl
    apply getLast?_any_eq_false
    intro character member
    exact isWordCharacter_eq_false_of_isGap (List.all_eq_true.mp hGap character member)

namespace Lexeme

variable {table : PrecedenceTable} {characters taken rest : List Char} {kind : TokenKind}

/-- A word ends where it cannot go on, an operator holds no character of a word, and a quoted
text ends with a double quote or at the end of the expression. -/
theorem Takes.apart (hTakes : Takes table characters kind taken rest) : Apart taken rest := by
  cases hTakes with
  | quoted body =>
      have takes : Takes table _ _ _ _ := .quoted body
      rcases takes.quoted_cases with ⟨inner, _, hTaken⟩ | ⟨_, _, _, hRest⟩
      · rw [hTaken, ← List.cons_append]
        apply Or.inl
        rw [List.getLast?_concat]
        rfl
      · rw [hRest]
        exact Or.inr rfl
  | word _ _ hRest => exact Or.inr hRest
  | @operator first front _ hQuote hFirst hMunches =>
      apply Or.inl
      apply getLast?_any_eq_false
      intro symbol member
      rcases List.mem_cons.mp member with rfl | behind
      · exact hFirst
      · apply isWordCharacter_eq_false_of_isSymbol
        exact forall_isSymbol_of_munches hMunches symbol behind

end Lexeme

/-! ### Where a scanner stands -/

/-- The characters in front of a scanner, which end no word that goes on behind it. -/
structure Scanner.StandsBehind (source : String) (past : List Char) (scanner : Scanner) :
    Prop where
  split : source.toList = past ++ scanner.remaining
  offset : byteLength past = scanner.offset
  apart : Apart past scanner.remaining

/-- The characters in front of a token and behind it. -/
structure Token.LiesBetween (table : PrecedenceTable) (source : String) (token : Token)
    (front rest : List Char) : Prop where
  split : source.toList = front ++ (token.text.toList ++ rest)
  span : token.span = ⟨byteLength front, byteLength front + byteLength token.text.toList⟩
  noGap : token.text.toList.head?.any isGap = false
  apart : Apart front token.text.toList
  takes : Lexeme.Takes table (token.text.toList ++ rest) token.kind token.text.toList rest

namespace Scanner

variable {table : PrecedenceTable} {source : String} {past : List Char} {scanner : Scanner}

theorem standsBehind_start (source : String) : (start source).StandsBehind source [] :=
  ⟨rfl, rfl, Or.inl rfl⟩

theorem StandsBehind.liesBetween (hStands : scanner.StandsBehind source past)
    (hToken : (scanner.next table).1.isEnd = false) :
    (scanner.next table).1.LiesBetween table source (past ++ scanner.remaining.takeWhile isGap)
      (scanner.next table).2.remaining := by
  have whole := remaining_eq_append table scanner
  have head := Lexeme.head?_any_dropWhile isGap scanner.remaining
  have apart := hStands.apart
  rw [dropWhile_eq_append table] at head
  rw [whole] at apart
  refine ⟨?_, ?_, Lexeme.head?_any_of_isPrefix head (List.prefix_append _ _), ?_,
    takes_next hToken⟩
  · rw [List.append_assoc, ← whole]
    exact hStands.split
  · rw [span_next, Text.byteLength_append, hStands.offset]
  · exact (Apart.behind_gap List.all_takeWhile apart).of_append

/-- Behind its next token a scanner stands in the expression again. -/
theorem StandsBehind.next (hStands : scanner.StandsBehind source past)
    (hToken : (scanner.next table).1.isEnd = false) :
    (scanner.next table).2.StandsBehind source
      (past ++ scanner.remaining.takeWhile isGap ++ (scanner.next table).1.text.toList) := by
  have lies := hStands.liesBetween hToken
  refine ⟨?_, ?_, lies.takes.apart.append lies.takes.ne_nil _⟩
  · rw [List.append_assoc _ (scanner.next table).1.text.toList]
    exact lies.split
  · rw [offset_next, lies.span, Text.byteLength_append]

theorem StandsBehind.exists_liesBetween (hStands : scanner.StandsBehind source past)
    {token : Token} (hToken : token ∈ (scanner.drain table).1) (hEnd : token.isEnd = false) :
    ∃ before front rest,
      (scanner.drain table).1 = before ++ token :: (drain table ⟨token.span.stop, rest⟩).1 ∧
        token.LiesBetween table source front rest := by
  induction scanner using next_induction table generalizing past with
  | atEnd scanner atEnd =>
      rw [drain_of_isEnd atEnd] at hToken
      rw [List.mem_singleton.mp hToken, atEnd] at hEnd
      contradiction
  | inFront scanner inFront ih =>
      rw [drain_of_not_isEnd inFront] at hToken ⊢
      rcases List.mem_cons.mp hToken with rfl | deeper
      · exact ⟨[], _, _, rfl, hStands.liesBetween inFront⟩
      · rcases ih (hStands.next inFront) deeper with ⟨before, front, rest, hDrain, lies⟩
        refine ⟨(scanner.next table).1 :: before, front, rest, ?_, lies⟩
        rw [hDrain, List.cons_append]

end Scanner

theorem Token.exists_liesBetween {table : PrecedenceTable} {source : String} {token : Token}
    (hToken : token ∈ tokenize table source) (hEnd : token.isEnd = false) :
    ∃ before front rest,
      tokenize table source =
          before ++ token :: (Scanner.drain table ⟨token.span.stop, rest⟩).1 ∧
        token.LiesBetween table source front rest :=
  (Scanner.standsBehind_start source).exists_liesBetween hToken hEnd

theorem Token.exists_body_of_quoted {table : PrecedenceTable} {source : String} {token : Token}
    (hToken : token ∈ tokenize table source) (hQuoted : token.kind = .quoted) :
    ∃ body, token.text.toList = '"' :: body := by
  have hEnd := Token.isEnd_eq_false_of_kind hQuoted TokenKind.noConfusion
  rcases Token.exists_liesBetween hToken hEnd with ⟨_, front, rest, _, lies⟩
  have hTakes := lies.takes
  rw [hQuoted] at hTakes
  rcases hTakes.quoted_cases with ⟨inner, _, hText⟩ | ⟨body, _, hText, _⟩
  · exact ⟨_, hText⟩
  · exact ⟨_, hText⟩

end OperatorCalculator
