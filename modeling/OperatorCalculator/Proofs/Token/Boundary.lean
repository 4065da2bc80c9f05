import OperatorCalculator.Proofs.Token.Truncated

/-
Cutting an expression between its tokens.

A token is the longest that could be made at its place, so it is not obvious that it stays
the same if the expression ends behind it.  It does: what is taken away behind a lexeme can
only keep it from going on.  Hence an expression may be cut where a token stops, each part be
scanned on its own, and the tokens of the second part be moved behind those of the first.
-/

set_option autoImplicit false

namespace OperatorCalculator

open Text (byteLength slice?)

/-! ### Tokens that are moved -/

def Span.movedBy (distance : Nat) (span : Span) : Span :=
  ⟨span.start + distance, span.stop + distance⟩

def Token.movedBy (distance : Nat) (token : Token) : Token :=
  { token with span := token.span.movedBy distance }

namespace Scanner

variable {table : PrecedenceTable}

def movedBy (distance : Nat) (scanner : Scanner) : Scanner :=
  { scanner with offset := scanner.offset + distance }

theorem next_movedBy (table : PrecedenceTable) (distance : Nat) (scanner : Scanner) :
    (scanner.movedBy distance).next table =
      ((scanner.next table).1.movedBy distance, (scanner.next table).2.movedBy distance) := by
  simp only [next, movedBy, Token.movedBy, Span.movedBy, Nat.add_right_comm _ distance]

theorem drain_movedBy (table : PrecedenceTable) (distance : Nat) (scanner : Scanner) :
    ((scanner.movedBy distance).drain table).1 =
      (scanner.drain table).1.map (Token.movedBy distance) := by
  have step := next_movedBy table distance
  induction scanner using next_induction table with
  | atEnd scanner hEnd =>
      have atEnd : ((scanner.movedBy distance).next table).1.isEnd = true := by
        rw [step]
        exact hEnd
      rw [drain_of_isEnd hEnd, drain_of_isEnd atEnd, step, List.map_singleton]
  | inFront scanner hToken ih =>
      have inFront : ((scanner.movedBy distance).next table).1.isEnd = false := by
        rw [step]
        exact hToken
      rw [drain_of_not_isEnd hToken, drain_of_not_isEnd inFront, step, ih, List.map_cons]

end Scanner

theorem map_movedBy_tokenize (table : PrecedenceTable) (distance : Nat) (source : String) :
    (tokenize table source).map (Token.movedBy distance) =
      (Scanner.drain table ⟨distance, source.toList⟩).1 := by
  rw [tokenize, ← Scanner.drain_movedBy, Scanner.movedBy, Scanner.start, Nat.zero_add]

/-! ### A lexeme in front of other text -/

namespace Scanner

variable {table : PrecedenceTable} {taken rest : List Char} {kind : TokenKind}

/-- A lexeme without a gap in front of it, and then the tokens of what is left behind it. -/
theorem drain_of_takes (offset : Nat) (hHead : (taken ++ rest).head?.any isGap = false)
    (hTakes : Lexeme.Takes table (taken ++ rest) kind taken rest) {short : List Char}
    (hShort : short <+: rest) :
    (drain table ⟨offset, taken ++ short⟩).1 =
      ⟨kind, String.ofList taken, ⟨offset, offset + byteLength taken⟩⟩ ::
        (drain table ⟨offset + byteLength taken, short⟩).1 := by
  have head := Lexeme.head?_any_of_isPrefix hHead ((List.prefix_append_right_inj taken).mpr hShort)
  exact drain_of_read offset List.all_nil head hTakes.kind_ne (hTakes.truncate hShort).read_eq

/-! ### Cutting behind a token -/

variable {scanner : Scanner} {before : List Token} {token : Token} {front back : List Char}

theorem CutsAt.exists_rest (hCuts : CutsAt table scanner before token front back)
    (hToken : token.isEnd = false) :
    ∃ rest, back = token.text.toList ++ rest ∧
      Lexeme.Takes table (token.text.toList ++ rest) token.kind token.text.toList rest := by
  rcases hCuts.takes hToken with ⟨rest, hTakes⟩
  refine ⟨rest, hTakes.append.symm, ?_⟩
  rw [hTakes.append]
  exact hTakes

theorem tokens_of_takes_alone (hHead : (taken ++ rest).head?.any isGap = false)
    (hTakes : Lexeme.Takes table (taken ++ rest) kind taken rest) :
    tokenize table (String.ofList taken) =
      [⟨kind, String.ofList taken, ⟨0, byteLength taken⟩⟩, Token.endAt (byteLength taken)] := by
  have alone := drain_of_takes 0 hHead hTakes List.nil_prefix
  rw [List.append_nil, Nat.zero_add, drain_nil] at alone
  rw [tokenize, start, String.toList_ofList, alone]

end Scanner

/-- What is in front of an offset and what is behind are scanned into the tokens of the whole. -/
structure SplitsAt (table : PrecedenceTable) (source : String) (offset : Nat)
    (front back : List Char) : Prop where
  split : source.toList = front ++ back
  length : byteLength front = offset
  tokens : tokenize table source =
    (tokenize table (String.ofList front)).dropLast ++
      (tokenize table (String.ofList back)).map (Token.movedBy offset)

variable {table : PrecedenceTable} {source : String} {token : Token}

theorem eq_endAt_of_isEnd (hToken : token ∈ tokenize table source) (hEnd : token.isEnd = true) :
    token = Token.endAt source.utf8ByteSize := by
  rcases (tokenize_partition table source).ended with ⟨inner, hTokens, hInner⟩
  rw [hTokens] at hToken
  rcases List.mem_append.mp hToken with inside | atEnd
  · rw [(hInner token inside).1] at hEnd
    contradiction
  · exact List.mem_singleton.mp atEnd

theorem tokenize_empty (table : PrecedenceTable) : tokenize table "" = [Token.endAt 0] :=
  Scanner.drain_nil table 0

theorem splitsAt_end (table : PrecedenceTable) (source : String) :
    SplitsAt table source source.utf8ByteSize source.toList [] := by
  rcases (tokenize_partition table source).ended with ⟨inner, hTokens, _⟩
  refine ⟨(List.append_nil _).symm, Text.byteLength_toList source, ?_⟩
  rw [String.ofList_toList, map_movedBy_tokenize, String.toList_ofList, Scanner.drain_nil,
    hTokens, List.dropLast_concat]

theorem splitsAt_stop {before after : List Token} {front rest : List Char}
    (hTokens : tokenize table source = before ++ token :: after)
    (hCuts : Scanner.CutsAt table (.start source) before token front (token.text.toList ++ rest))
    (hTakes : Lexeme.Takes table (token.text.toList ++ rest) token.kind token.text.toList rest) :
    SplitsAt table source token.span.stop (front ++ token.text.toList) rest := by
  have start : token.span.start = byteLength front := hCuts.start.trans (Nat.zero_add _)
  have stop : token.span.stop = token.span.start + byteLength token.text.toList := by
    apply (((Scanner.start source).cuts_drain table).stop_eq token _).2
    rw [← tokenize, hTokens]
    exact List.mem_append_right before List.mem_cons_self
  have drained : ∀ short, short <+: rest →
      (Scanner.drain table ⟨0, front ++ (token.text.toList ++ short)⟩).1 =
        before ++ token :: (Scanner.drain table ⟨token.span.stop, short⟩).1 := by
    intro short hShort
    have cut := hCuts.truncates _ ((List.prefix_append_right_inj token.text.toList).mpr hShort)
    rw [Scanner.drain_of_takes _ hCuts.head hTakes hShort, String.ofList_toList, ← stop] at cut
    exact cut
  refine ⟨?_, ?_, ?_⟩
  · rw [List.append_assoc]
    exact hCuts.split
  · rw [Text.byteLength_append, stop, start]
  · have whole := drained rest List.prefix_rfl
    have short := drained [] List.nil_prefix
    rw [Scanner.drain_nil, List.append_nil, List.append_cons] at short
    rw [List.append_cons, ← hCuts.split] at whole
    rw [map_movedBy_tokenize, String.toList_ofList, tokenize, tokenize, Scanner.start,
      Scanner.start, String.toList_ofList, short, List.dropLast_concat]
    exact whole

theorem SplitsAt.exists_slices {offset : Nat} {front back : List Char}
    (hSplits : SplitsAt table source offset front back) :
    ∃ front back : String,
      slice? source.toList 0 offset = some front.toList ∧
        slice? source.toList offset source.utf8ByteSize = some back.toList ∧
        tokenize table source = (tokenize table front).dropLast ++
          (tokenize table back).map (Token.movedBy offset) := by
  refine ⟨String.ofList front, String.ofList back, ?_, ?_, hSplits.tokens⟩
  · have found := Text.slice?_append [] front back
    rw [List.nil_append, Text.byteLength_nil, Nat.zero_add, hSplits.length] at found
    rw [hSplits.split, found, String.toList_ofList]
  · have found := Text.slice?_append front back []
    rw [List.append_nil, ← Text.byteLength_append, ← hSplits.split, Text.byteLength_toList,
      hSplits.length] at found
    rw [found, String.toList_ofList]

/-- An expression may be cut where a token stops.  The tokens of what is in front, without
their end of input, and those of what is behind, moved by the length of what is in front, are
the tokens of the whole.  And the text of a token, scanned alone, is that token. -/
theorem tokenize_cut_behind_token (table : PrecedenceTable) (source : String) {token : Token}
    (hToken : token ∈ tokenize table source) :
    (∃ front back : String,
      slice? source.toList 0 token.span.stop = some front.toList ∧
        slice? source.toList token.span.stop source.utf8ByteSize = some back.toList ∧
        tokenize table source = (tokenize table front).dropLast ++
          (tokenize table back).map (Token.movedBy token.span.stop)) ∧
      tokenize table token.text =
        (if token.isEnd then []
          else [⟨token.kind, token.text, ⟨0, token.text.utf8ByteSize⟩⟩]) ++
            [Token.endAt token.text.utf8ByteSize] := by
  cases hEnd : token.isEnd with
  | true =>
      rw [eq_endAt_of_isEnd hToken hEnd]
      exact ⟨(splitsAt_end table source).exists_slices, tokenize_empty table⟩
  | false =>
      rcases List.append_of_mem hToken with ⟨before, after, hTokens⟩
      rcases Scanner.exists_cutsAt hTokens with ⟨front, back, hCuts⟩
      rcases hCuts.exists_rest hEnd with ⟨rest, rfl, hTakes⟩
      constructor
      · exact (splitsAt_stop hTokens hCuts hTakes).exists_slices
      · have alone := Scanner.tokens_of_takes_alone hCuts.head hTakes
        rwa [String.ofList_toList, Text.byteLength_toList] at alone

/-- Behind the longer of two operators in a run of symbols that goes on with a quoted text. -/
theorem tokenize_cut_inside_run :
    let table := PrecedenceTable.standard.enter "<-" 2
    let source := "a <--\"<- \\\"\"<"
    let token : Token := ⟨.operator, "<-", ⟨2, 4⟩⟩
    token ∈ tokenize table source ∧
      (∃ front back : String,
        slice? source.toList 0 4 = some front.toList ∧
          slice? source.toList 4 source.utf8ByteSize = some back.toList ∧
          tokenize table source = (tokenize table front).dropLast ++
            (tokenize table back).map (Token.movedBy 4)) ∧
        tokenize table "<-" = [⟨.operator, "<-", ⟨0, 2⟩⟩, Token.endAt 2] := by
  intro table source token
  have member : token ∈ tokenize table source := by decide +kernel
  exact ⟨member, tokenize_cut_behind_token table source member⟩

end OperatorCalculator
