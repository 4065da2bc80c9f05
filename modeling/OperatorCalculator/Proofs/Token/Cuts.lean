import OperatorCalculator.Proofs.Text.Slice
import OperatorCalculator.Token.Scanner

/-
Tokens and gaps cut an expression without loss.

The tokens of a scanner and the gaps in front of them make up what is left of an
expression, and the span of each token says where its text lies.  So the tokens of an
expression are slices of it, in order and apart, and only gap characters lie between
them.
-/

set_option autoImplicit false

namespace OperatorCalculator

open Text (byteLength slice?)

/-! ### Cutting from an offset on -/

def Token.endAt (offset : Nat) : Token := ⟨.endOfInput, "", ⟨offset, offset⟩⟩

theorem Token.isEnd_eq_false_of_kind {token : Token} {kind : TokenKind}
    (hKind : token.kind = kind) (hInside : kind ≠ .endOfInput) : token.isEnd = false := by
  unfold Token.isEnd
  rw [hKind]
  exact beq_eq_false_iff_ne.mpr hInside

/-- Each token comes behind a gap, and its span starts where the gap stops. -/
inductive Cuts : Nat → List Char → List Token → Prop
  | last {offset : Nat} {gap : List Char} (hGap : gap.all isGap = true) :
      Cuts offset gap [Token.endAt (offset + byteLength gap)]
  | next {offset : Nat} {gap rest : List Char} {token : Token} {tokens : List Token}
      (hGap : gap.all isGap = true) (hToken : token.isEnd = false) (hText : token.text ≠ "")
      (hSpan : token.span = ⟨offset + byteLength gap,
        offset + byteLength gap + byteLength token.text.toList⟩)
      (hRest : Cuts token.span.stop rest tokens) :
      Cuts offset (gap ++ (token.text.toList ++ rest)) (token :: tokens)

namespace Scanner

variable {table : PrecedenceTable}

theorem remaining_eq_append (table : PrecedenceTable) (scanner : Scanner) :
    scanner.remaining = scanner.remaining.takeWhile isGap ++
      ((scanner.next table).1.text.toList ++ (scanner.next table).2.remaining) := by
  have whole := Lexeme.read_append table (scanner.remaining.dropWhile isGap)
  simp only [next, String.toList_ofList, whole, List.takeWhile_append_dropWhile]

theorem span_next (table : PrecedenceTable) (scanner : Scanner) :
    (scanner.next table).1.span =
      ⟨scanner.offset + byteLength (scanner.remaining.takeWhile isGap),
        scanner.offset + byteLength (scanner.remaining.takeWhile isGap) +
          byteLength (scanner.next table).1.text.toList⟩ := by
  simp only [next, String.toList_ofList]

theorem offset_next (table : PrecedenceTable) (scanner : Scanner) :
    (scanner.next table).2.offset = (scanner.next table).1.span.stop := rfl

theorem isEnd_next_iff {scanner : Scanner} :
    (scanner.next table).1.isEnd = true ↔ scanner.remaining.dropWhile isGap = [] := by
  rw [← Lexeme.read_kind_eq_endOfInput_iff table]
  exact beq_iff_eq

theorem text_next_of_isEnd {scanner : Scanner}
    (hEnd : (scanner.next table).1.isEnd = true) :
    scanner.remaining.all isGap = true ∧
      (scanner.next table).1 = Token.endAt (scanner.offset + byteLength scanner.remaining) := by
  have nothing := isEnd_next_iff.mp hEnd
  have onlyGap : scanner.remaining.takeWhile isGap = scanner.remaining := by
    have whole := List.takeWhile_append_dropWhile (p := isGap) (l := scanner.remaining)
    rwa [nothing, List.append_nil] at whole
  constructor
  · rw [← onlyGap]
    exact List.all_takeWhile
  · simp [next, nothing, onlyGap, Lexeme.read, Token.endAt]

theorem dropWhile_ne_nil {scanner : Scanner} (hToken : (scanner.next table).1.isEnd = false) :
    scanner.remaining.dropWhile isGap ≠ [] := by
  intro nothing
  rw [isEnd_next_iff.mpr nothing] at hToken
  contradiction

theorem text_next_ne_empty {scanner : Scanner}
    (hToken : (scanner.next table).1.isEnd = false) : (scanner.next table).1.text ≠ "" := by
  intro hText
  have characters := Lexeme.read_characters_ne_nil table (dropWhile_ne_nil hToken)
  apply characters
  simpa [next] using hText

theorem next_next_of_isEnd (table : PrecedenceTable) (scanner : Scanner)
    (hEnd : (scanner.next table).1.isEnd = true) :
    (scanner.next table).2.next table = scanner.next table := by
  have nothing := isEnd_next_iff.mp hEnd
  simp [next, nothing, Lexeme.read]

/-! ### Draining a scanner -/

theorem drain_of_isEnd {table : PrecedenceTable} {scanner : Scanner}
    (hEnd : (scanner.next table).1.isEnd = true) :
    (scanner.drain table).1 = [(scanner.next table).1] := by
  rw [drain]
  simp only [hEnd, dite_true]

theorem drain_of_not_isEnd {table : PrecedenceTable} {scanner : Scanner}
    (hToken : (scanner.next table).1.isEnd = false) :
    (scanner.drain table).1 =
      (scanner.next table).1 :: ((scanner.next table).2.drain table).1 := by
  rw [drain]
  simp only [hToken, Bool.false_eq_true, dite_false]

theorem behind_drain_of_isEnd {table : PrecedenceTable} {scanner : Scanner}
    (hEnd : (scanner.next table).1.isEnd = true) :
    (scanner.drain table).2 = (scanner.next table).2 := by
  rw [drain]
  simp only [hEnd, dite_true]

theorem behind_drain_of_not_isEnd {table : PrecedenceTable} {scanner : Scanner}
    (hToken : (scanner.next table).1.isEnd = false) :
    (scanner.drain table).2 = ((scanner.next table).2.drain table).2 := by
  rw [drain]
  simp only [hToken, Bool.false_eq_true, dite_false]

/-- A scanner is either in front of the end of input, or in front of another scanner. -/
theorem next_induction (table : PrecedenceTable) {motive : Scanner → Prop}
    (atEnd : ∀ scanner, (scanner.next table).1.isEnd = true → motive scanner)
    (inFront : ∀ scanner, (scanner.next table).1.isEnd = false →
      motive (scanner.next table).2 → motive scanner)
    (scanner : Scanner) : motive scanner := by
  induction scanner using drain.induct table with
  | case1 scanner step hEnd => exact atEnd scanner hEnd
  | case2 scanner step hEnd tokens behind hRest ih =>
      exact inFront scanner (by simpa using hEnd) ih

theorem cuts_drain (table : PrecedenceTable) (scanner : Scanner) :
    Cuts scanner.offset scanner.remaining (scanner.drain table).1 := by
  induction scanner using next_induction table with
  | atEnd scanner hEnd =>
      obtain ⟨onlyGap, hToken⟩ := text_next_of_isEnd hEnd
      rw [drain_of_isEnd hEnd, hToken]
      exact .last onlyGap
  | inFront scanner hToken ih =>
      have cut := Cuts.next (List.all_takeWhile (l := scanner.remaining)) hToken
        (text_next_ne_empty hToken) (span_next table scanner) ih
      rw [drain_of_not_isEnd hToken]
      rwa [← remaining_eq_append] at cut

end Scanner

/-! ### Where a scanner stands -/

/-- The offset of a scanner is where what remains starts in the expression. -/
def Scanner.StandsIn (source : String) (scanner : Scanner) : Prop :=
  ∃ before, source.toList = before ++ scanner.remaining ∧ byteLength before = scanner.offset

namespace Scanner

variable {table : PrecedenceTable} {source : String} {scanner : Scanner}

theorem standsIn_start (source : String) : (start source).StandsIn source := ⟨[], rfl, rfl⟩

theorem StandsIn.skip {front back : List Char} (hStands : scanner.StandsIn source)
    (hSplit : scanner.remaining = front ++ back) :
    StandsIn source ⟨scanner.offset + byteLength front, back⟩ := by
  rcases hStands with ⟨before, hSource, hBefore⟩
  refine ⟨before ++ front, ?_, ?_⟩
  · rw [hSource, hSplit, List.append_assoc]
  · rw [Text.byteLength_append, hBefore]

theorem StandsIn.next (hStands : scanner.StandsIn source) :
    (scanner.next table).2.StandsIn source := by
  have whole := remaining_eq_append table scanner
  rw [← List.append_assoc] at whole
  have behind := hStands.skip whole
  rw [Text.byteLength_append, ← Nat.add_assoc] at behind
  have offset : (scanner.next table).2.offset = scanner.offset +
      byteLength (scanner.remaining.takeWhile isGap) +
        byteLength (scanner.next table).1.text.toList := by
    rw [offset_next, span_next]
  rwa [← offset] at behind

theorem StandsIn.slice_eq (hStands : scanner.StandsIn source) {front back : List Char}
    (hSplit : scanner.remaining = front ++ back) :
    slice? source.toList scanner.offset (scanner.offset + byteLength front) = some front := by
  rcases hStands with ⟨before, hSource, hBefore⟩
  rw [hSource, hSplit, ← hBefore]
  exact Text.slice?_append before front back

theorem StandsIn.size_eq (hStands : scanner.StandsIn source) :
    source.utf8ByteSize = scanner.offset + byteLength scanner.remaining := by
  rcases hStands with ⟨before, hSource, hBefore⟩
  rw [← Text.byteLength_toList, hSource, Text.byteLength_append, hBefore]

theorem StandsIn.slice_remaining (hStands : scanner.StandsIn source) :
    slice? source.toList scanner.offset source.utf8ByteSize = some scanner.remaining := by
  rw [hStands.size_eq]
  exact hStands.slice_eq (List.append_nil _).symm

end Scanner

/-! ### What a cut says about the tokens -/

namespace Cuts

variable {offset : Nat} {characters : List Char} {tokens : List Token}

theorem ended (hCuts : Cuts offset characters tokens) :
    ∃ front, tokens = front ++ [Token.endAt (offset + byteLength characters)] ∧
      ∀ token ∈ front, token.isEnd = false ∧ token.text ≠ "" := by
  induction hCuts with
  | last hGap => exact ⟨[], rfl, fun token member => absurd member List.not_mem_nil⟩
  | @next offset gap rest token tokens hGap hToken hText hSpan _ ih =>
      obtain ⟨front, hFront, hInner⟩ := ih
      refine ⟨token :: front, ?_, ?_⟩
      · rw [hFront, hSpan]
        simp only [Text.byteLength_append, List.cons_append, Nat.add_assoc]
      · intro other member
        rcases List.mem_cons.mp member with rfl | deeper
        · exact ⟨hToken, hText⟩
        · exact hInner other deeper

theorem stop_eq (hCuts : Cuts offset characters tokens) :
    ∀ token ∈ tokens, offset ≤ token.span.start ∧
      token.span.stop = token.span.start + byteLength token.text.toList := by
  induction hCuts with
  | @last offset gap hGap =>
      intro token member
      obtain rfl := List.mem_singleton.mp member
      exact ⟨Nat.le_add_right _ _, rfl⟩
  | @next offset gap rest token tokens hGap hToken hText hSpan _ ih =>
      intro other member
      rcases List.mem_cons.mp member with rfl | deeper
      · rw [hSpan]
        exact ⟨Nat.le_add_right _ _, rfl⟩
      · obtain ⟨behind, hStop⟩ := ih other deeper
        rw [hSpan] at behind
        refine ⟨?_, hStop⟩
        simp only at behind
        omega

theorem pairwise (hCuts : Cuts offset characters tokens) :
    tokens.Pairwise fun first second => first.span.stop ≤ second.span.start := by
  induction hCuts with
  | last hGap => exact List.pairwise_singleton _ _
  | next hGap hToken hText hSpan hRest ih =>
      apply List.pairwise_cons.mpr
      constructor
      · intro other member
        exact (hRest.stop_eq other member).1
      · exact ih

theorem slices (hCuts : Cuts offset characters tokens) {before : List Char}
    (hBefore : byteLength before = offset) :
    ∀ token ∈ tokens, slice? (before ++ characters) token.span.start token.span.stop =
      some token.text.toList := by
  induction hCuts generalizing before with
  | @last offset gap hGap =>
      intro token member
      obtain rfl := List.mem_singleton.mp member
      have nothing := Text.slice?_append (before ++ gap) [] []
      simpa [Token.endAt, hBefore] using nothing
  | @next offset gap rest token tokens hGap hToken hText hSpan hRest ih =>
      intro other member
      rcases List.mem_cons.mp member with rfl | deeper
      · have found := Text.slice?_append (before ++ gap) other.text.toList rest
        rw [hSpan]
        simpa only [Text.byteLength_append, hBefore, List.append_assoc] using found
      · have moved : byteLength (before ++ (gap ++ token.text.toList)) = token.span.stop := by
          rw [hSpan]
          simp only [Text.byteLength_append, hBefore, Nat.add_assoc]
        have found := ih moved other deeper
        simpa only [List.append_assoc] using found

end Cuts

def gapSpans : Nat → List Token → List Span
  | _, [] => []
  | offset, token :: tokens => ⟨offset, token.span.start⟩ :: gapSpans token.span.stop tokens

/-- Gaps and texts in turn. -/
def interleave (gaps : List (List Char)) (tokens : List Token) : List Char :=
  (gaps.zipWith (fun gap token => gap ++ token.text.toList) tokens).flatten

/-- What lies in front of the tokens, the first of them behind an offset. -/
def gapsOf? (characters : List Char) (offset : Nat) (tokens : List Token) :
    Option (List (List Char)) :=
  (gapSpans offset tokens).mapM fun span => slice? characters span.start span.stop

theorem interleave_endAt (gap : List Char) (offset : Nat) :
    interleave [gap] [Token.endAt offset] = gap := by
  simp [interleave, Token.endAt]

theorem interleave_cons (gap : List Char) (gaps : List (List Char)) (token : Token)
    (tokens : List Token) :
    interleave (gap :: gaps) (token :: tokens) =
      gap ++ (token.text.toList ++ interleave gaps tokens) := by
  simp only [interleave, List.zipWith_cons_cons, List.flatten_cons, List.append_assoc]

section

variable {offset : Nat} {before : List Char}

theorem gapsOf?_endAt (hBefore : byteLength before = offset) (gap : List Char) :
    gapsOf? (before ++ gap) offset [Token.endAt (offset + byteLength gap)] = some [gap] := by
  have found := Text.slice?_append before gap []
  rw [List.append_nil, hBefore] at found
  simp [gapsOf?, gapSpans, Token.endAt, found]

theorem gapsOf?_cons (hBefore : byteLength before = offset) {gap rest : List Char}
    {token : Token} (hSpan : token.span = ⟨offset + byteLength gap,
      offset + byteLength gap + byteLength token.text.toList⟩) (tokens : List Token) :
    gapsOf? (before ++ (gap ++ (token.text.toList ++ rest))) offset (token :: tokens) =
      (gapsOf? (before ++ (gap ++ token.text.toList) ++ rest) token.span.stop tokens).map
        (gap :: ·) := by
  have found := Text.slice?_append before gap (token.text.toList ++ rest)
  have start : token.span.start = offset + byteLength gap := by
    rw [hSpan]
  rw [hBefore] at found
  simp only [gapsOf?, gapSpans, List.mapM_cons, start, found, List.append_assoc,
    Option.map_eq_bind]
  rfl

end

theorem Cuts.gaps {offset : Nat} {characters before : List Char} {tokens : List Token}
    (hCuts : Cuts offset characters tokens) (hBefore : byteLength before = offset) :
    ∃ gaps, gapsOf? (before ++ characters) offset tokens = some gaps ∧
      (∀ gap ∈ gaps, gap.all isGap = true) ∧ characters = interleave gaps tokens := by
  induction hCuts generalizing before with
  | @last offset gap hGap =>
      refine ⟨[gap], gapsOf?_endAt hBefore gap, ?_, (interleave_endAt gap _).symm⟩
      intro other member
      obtain rfl := List.mem_singleton.mp member
      exact hGap
  | @next offset gap rest token tokens hGap hToken hText hSpan hRest ih =>
      have moved : byteLength (before ++ (gap ++ token.text.toList)) = token.span.stop := by
        rw [hSpan]
        simp only [Text.byteLength_append, hBefore, Nat.add_assoc]
      obtain ⟨gaps, hGaps, hAll, hRestEq⟩ := ih moved
      refine ⟨gap :: gaps, ?_, ?_, ?_⟩
      · rw [gapsOf?_cons hBefore hSpan, hGaps]
        rfl
      · intro other member
        rcases List.mem_cons.mp member with rfl | deeper
        · exact hGap
        · exact hAll other deeper
      · rw [interleave_cons, ← hRestEq]

/-! ### The tokens of an expression -/

/-- Tokens cut an expression without loss: they end with the one end of input, their texts
are slices in order and apart, and between them there are gaps only. -/
structure Partition (source : String) (tokens : List Token) : Prop where
  ended : ∃ front, tokens = front ++ [Token.endAt source.utf8ByteSize] ∧
    ∀ token ∈ front, token.isEnd = false ∧ token.text ≠ ""
  sliced : ∀ token ∈ tokens,
    slice? source.toList token.span.start token.span.stop = some token.text.toList
  rising : ∀ token ∈ tokens, token.isEnd = false → token.span.start < token.span.stop
  ordered : tokens.Pairwise fun first second => first.span.stop ≤ second.span.start
  gaps : ∃ gaps,
    (gapSpans 0 tokens).mapM (fun span => slice? source.toList span.start span.stop) =
      some gaps ∧
    (∀ gap ∈ gaps, gap.all isGap = true) ∧ source.toList = interleave gaps tokens

theorem partition_of_cuts {source : String} {tokens : List Token}
    (hCuts : Cuts 0 source.toList tokens) : Partition source tokens := by
  obtain ⟨front, hFront, hInner⟩ := hCuts.ended
  rw [Nat.zero_add, Text.byteLength_toList] at hFront
  refine ⟨⟨front, hFront, hInner⟩, hCuts.slices Text.byteLength_nil, ?_, hCuts.pairwise,
    hCuts.gaps Text.byteLength_nil⟩
  intro token member hToken
  have stop := (hCuts.stop_eq token member).2
  have nonempty : token.text ≠ "" := by
    rw [hFront] at member
    rcases List.mem_append.mp member with inFront | atEnd
    · exact (hInner token inFront).2
    · obtain rfl := List.mem_singleton.mp atEnd
      contradiction
  have wide : 0 < byteLength token.text.toList := Text.byteLength_pos (by simpa using nonempty)
  omega

theorem tokenize_partition (table : PrecedenceTable) (source : String) :
    Partition source (tokenize table source) :=
  partition_of_cuts ((Scanner.start source).cuts_drain table)

end OperatorCalculator
