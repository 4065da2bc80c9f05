import Mathlib.Data.List.Forall2
import OperatorCalculator.Proofs.Token.Truncated

/-
Other gaps between the same tokens.

A scan is made of gaps and lexemes in turn, and a lexeme is the same in front of any gap, or
in front of none, if there was none.  So gaps may be made longer or shorter, or of other
characters, as long as no gap comes or goes: the tokens keep their classes and their texts,
and those that touched still do.
-/

set_option autoImplicit false

namespace OperatorCalculator

open Text (byteLength)

variable {table : PrecedenceTable}

/-! ### Gaps and lexemes in turn -/

/-- A scan from an offset on, with the gaps in front of its tokens: each token is what a scanner
takes where it stands, with what follows behind it. -/
inductive Scans (table : PrecedenceTable) : Nat → List (List Char) → List Token → Prop
  | last {offset : Nat} {gap : List Char} (hGap : gap.all isGap = true) :
      Scans table offset [gap] [Token.endAt (offset + byteLength gap)]
  | next {offset : Nat} {gap : List Char} {gaps : List (List Char)} {token : Token}
      {tokens : List Token} (hGap : gap.all isGap = true)
      (hHead : token.text.toList.head?.any isGap = false)
      (hTakes : Lexeme.Takes table (token.text.toList ++ interleave gaps tokens) token.kind
        token.text.toList (interleave gaps tokens))
      (hSpan : token.span = ⟨offset + byteLength gap,
        offset + byteLength gap + byteLength token.text.toList⟩)
      (hRest : Scans table token.span.stop gaps tokens) :
      Scans table offset (gap :: gaps) (token :: tokens)

theorem Scanner.exists_scans_drain (table : PrecedenceTable) (scanner : Scanner) :
    ∃ gaps, scanner.remaining = interleave gaps (scanner.drain table).1 ∧
      Scans table scanner.offset gaps (scanner.drain table).1 := by
  induction scanner using next_induction table with
  | atEnd scanner hEnd =>
      rcases text_next_of_isEnd hEnd with ⟨onlyGap, hToken⟩
      rw [drain_of_isEnd hEnd, hToken]
      exact ⟨[scanner.remaining], (interleave_endAt _ _).symm, .last onlyGap⟩
  | inFront scanner hToken ih =>
      rcases ih with ⟨gaps, hRest, hScans⟩
      have whole := remaining_eq_append table scanner
      rw [hRest] at whole
      rw [drain_of_not_isEnd hToken]
      refine ⟨scanner.remaining.takeWhile isGap :: gaps, ?_, ?_⟩
      · rw [interleave_cons]
        exact whole
      · have head := Lexeme.head?_any_dropWhile isGap scanner.remaining
        rw [dropWhile_eq_append table] at head
        have takes := takes_next hToken
        rw [hRest] at takes
        exact .next List.all_takeWhile
          (Lexeme.head?_any_of_isPrefix head (List.prefix_append _ _)) takes
          (span_next table scanner) hScans

namespace Scans

variable {offset : Nat} {gap : List Char} {gaps : List (List Char)} {token : Token}
  {tokens : List Token}

theorem drain_eq (hScans : Scans table offset gaps tokens) :
    (Scanner.drain table ⟨offset, interleave gaps tokens⟩).1 = tokens := by
  induction hScans with
  | @last offset gap hGap =>
      have drained := Scanner.drain_gap table hGap offset []
      rw [List.append_nil, Scanner.drain_nil] at drained
      rw [interleave_endAt, drained]
  | @next offset gap gaps token tokens hGap hHead hTakes hSpan _ ih =>
      have head : (token.text.toList ++ interleave gaps tokens).head?.any isGap = false := by
        rwa [List.head?_append_of_ne_nil _ hTakes.ne_nil]
      have drained := Scanner.drain_of_read offset hGap head hTakes.kind_ne hTakes.read_eq
      have stop : offset + byteLength gap + byteLength token.text.toList = token.span.stop := by
        rw [hSpan]
      rw [interleave_cons, drained, stop, ih, String.ofList_toList, ← stop, ← hSpan]

theorem touches_iff (hScans : Scans table offset (gap :: gaps) (token :: tokens)) :
    token.span.start = offset ↔ gap = [] := by
  have start : token.span.start = offset + byteLength gap := by
    cases hScans with
    | last _ => rfl
    | next _ _ _ hSpan _ => rw [hSpan]
  rw [start]
  constructor
  · intro same
    cases gap with
    | nil => rfl
    | cons character gap =>
        have wide := Text.byteLength_pos (List.cons_ne_nil character gap)
        omega
  · rintro rfl
    rfl

theorem gapsOf?_eq {before : List Char} (hScans : Scans table offset gaps tokens)
    (hBefore : byteLength before = offset) :
    gapsOf? (before ++ interleave gaps tokens) offset tokens = some gaps := by
  induction hScans generalizing before with
  | @last offset gap hGap =>
      rw [interleave_endAt]
      exact gapsOf?_endAt hBefore gap
  | @next offset gap gaps token tokens hGap hHead hTakes hSpan _ ih =>
      have moved : byteLength (before ++ (gap ++ token.text.toList)) = token.span.stop := by
        rw [hSpan]
        simp only [Text.byteLength_append, hBefore, Nat.add_assoc]
      rw [interleave_cons, gapsOf?_cons hBefore hSpan, ih moved, Option.map_some]

end Scans

/-! ### Other gaps in the places of gaps -/

/-- Another gap, which is empty exactly if the one in its place is. -/
structure Respaced (gap other : List Char) : Prop where
  isGap : other.all isGap = true
  empty : other = [] ↔ gap = []

/-- Other gaps for the same tokens.  In front of the first token a gap may come or go. -/
inductive Respaces : List (List Char) → List (List Char) → Prop
  | gaps {first other : List Char} {gaps others : List (List Char)}
      (hFirst : other.all isGap = true) (hRest : List.Forall₂ Respaced gaps others) :
      Respaces (first :: gaps) (other :: others)

namespace Lexeme

variable {rest other : List Char}

theorem Replaces.append (hOther : Replaces other rest) (text : List Char) :
    Replaces (text ++ other) (text ++ rest) where
  nothing := by
    intro hNothing
    rcases List.append_eq_nil_iff.mp hNothing with ⟨rfl, rfl⟩
    exact hOther.nothing rfl
  word := by
    cases text with
    | nil => exact hOther.word
    | cons character text => exact id
  symbols := by
    rw [List.takeWhile_append, List.takeWhile_append]
    split
    · exact (List.prefix_append_right_inj text).mpr hOther.symbols
    · exact List.prefix_rfl

/-- A gap ends every lexeme, so it may stand wherever something stands. -/
theorem replaces_of_gap {gap : List Char} (hGap : gap.all isGap = true) (hSome : gap ≠ [])
    (other : List Char) (hRest : rest ≠ []) : Replaces (gap ++ other) rest := by
  cases gap with
  | nil => contradiction
  | cons character gap =>
      have here : isGap character = true := (Bool.and_eq_true_iff.mp hGap).1
      refine ⟨fun nothing => absurd nothing hRest, fun _ => ?_, ?_⟩
      · exact isWordCharacter_eq_false_of_isGap here
      · rw [List.cons_append, List.takeWhile_cons, isSymbol_eq_false_of_isGap here]
        exact List.nil_prefix

theorem Replaces.behind_gap {gap otherGap : List Char} (hGap : Respaced gap otherGap)
    (hOther : Replaces other rest) : Replaces (otherGap ++ other) (gap ++ rest) := by
  cases otherGap with
  | nil =>
      rw [hGap.empty.mp rfl]
      exact hOther
  | cons character otherGap =>
      have something : gap ≠ [] := fun nothing => List.cons_ne_nil _ _ (hGap.empty.mpr nothing)
      exact replaces_of_gap hGap.isGap (List.cons_ne_nil _ _) other
        (List.append_ne_nil_of_left_ne_nil something rest)

theorem replaces_interleave {gaps others : List (List Char)}
    (hOthers : List.Forall₂ Respaced gaps others) (tokens : List Token) :
    Replaces (interleave others tokens) (interleave gaps tokens) := by
  induction hOthers generalizing tokens with
  | nil => exact replaces_of_isPrefix List.prefix_rfl
  | cons hGap _ ih =>
      cases tokens with
      | nil => exact replaces_of_isPrefix List.prefix_rfl
      | cons token tokens =>
          rw [interleave_cons, interleave_cons]
          exact ((ih tokens).append token.text.toList).behind_gap hGap

end Lexeme

/-! ### The same lexemes -/

/-- Tokens of the same classes and with the same texts, of which the same touch one another. -/
inductive SameLexemes : List Token → List Token → Prop
  | nil : SameLexemes [] []
  | cons {token other : Token} {tokens others : List Token} (hKind : other.kind = token.kind)
      (hText : other.text = token.text)
      (hTouch : ∀ next otherNext, tokens.head? = some next → others.head? = some otherNext →
        (otherNext.span.start = other.span.stop ↔ next.span.start = token.span.stop))
      (hRest : SameLexemes tokens others) : SameLexemes (token :: tokens) (other :: others)

namespace SameLexemes

variable {tokens others : List Token}

theorem interleave_eq (hSame : SameLexemes tokens others) (gaps : List (List Char)) :
    interleave gaps others = interleave gaps tokens := by
  induction hSame generalizing gaps with
  | nil => rfl
  | cons _ hText _ _ ih =>
      cases gaps with
      | nil => rfl
      | cons gap gaps => rw [interleave_cons, interleave_cons, hText, ih]

theorem map_eq (hSame : SameLexemes tokens others) :
    others.map (fun token => (token.kind, token.text)) =
      tokens.map fun token => (token.kind, token.text) := by
  induction hSame with
  | nil => rfl
  | cons hKind hText _ _ ih => rw [List.map_cons, List.map_cons, hKind, hText, ih]

end SameLexemes

/-- The same lexemes can be scanned with other gaps between them. -/
theorem Scans.respace {offset : Nat} {gaps others : List (List Char)} {tokens : List Token}
    (hScans : Scans table offset gaps tokens) (hOthers : Respaces gaps others)
    (otherOffset : Nat) :
    ∃ otherTokens, Scans table otherOffset others otherTokens ∧
      SameLexemes tokens otherTokens := by
  induction hScans generalizing others otherOffset with
  | last _ =>
      cases hOthers with
      | gaps hFirst hRest =>
          cases hRest with
          | nil =>
              refine ⟨_, .last hFirst, .cons rfl rfl ?_ .nil⟩
              intro next otherNext hNext
              contradiction
  | @next offset gap gaps token tokens _ hHead hTakes hSpan hRest ih =>
      cases hOthers with
      | @gaps _ other _ others hFirst hBehind =>
          cases hBehind with
          | nil => contradiction
          | @cons nextGap otherGap gaps others hGap hGaps =>
              rcases ih (.gaps hGap.isGap hGaps)
                (otherOffset + byteLength other + byteLength token.text.toList) with
                ⟨otherTokens, hOther, hSame⟩
              have takes := hTakes.replace (Lexeme.replaces_interleave (.cons hGap hGaps) tokens)
              rw [← hSame.interleave_eq] at takes
              refine ⟨⟨token.kind, token.text, ⟨otherOffset + byteLength other, _⟩⟩ :: otherTokens,
                .next hFirst hHead takes rfl hOther, .cons rfl rfl ?_ hSame⟩
              intro next otherNext hNext hOtherNext
              rcases List.head?_eq_some_iff.mp hNext with ⟨tokens, rfl⟩
              rcases List.head?_eq_some_iff.mp hOtherNext with ⟨otherTokens, rfl⟩
              rw [hOther.touches_iff, hRest.touches_iff, hGap.empty]

/-- The text in which other gaps stand in front of the tokens of an expression has the same
lexemes, and these gaps. -/
theorem sameLexemes_respaced {source : String} {gaps others : List (List Char)}
    (hGaps : gapsOf? source.toList 0 (tokenize table source) = some gaps)
    (hOthers : Respaces gaps others) {other : String}
    (hOther : other.toList = interleave others (tokenize table source)) :
    SameLexemes (tokenize table source) (tokenize table other) ∧
      gapsOf? other.toList 0 (tokenize table other) = some others := by
  rcases (Scanner.start source).exists_scans_drain table with ⟨found, hSource, hScans⟩
  have same : found = gaps := by
    have hFound := hScans.gapsOf?_eq Text.byteLength_nil
    rw [List.nil_append, ← hSource] at hFound
    exact Option.some.inj (hFound.symm.trans hGaps)
  rw [same] at hScans
  rcases hScans.respace hOthers 0 with ⟨otherTokens, hOtherScans, hSame⟩
  have whole : other.toList = interleave others otherTokens := by
    rw [hSame.interleave_eq, hOther]
    rfl
  have tokens : tokenize table other = otherTokens := by
    rw [tokenize, Scanner.start, whole]
    exact hOtherScans.drain_eq
  have hOthersOf := hOtherScans.gapsOf?_eq Text.byteLength_nil
  rw [List.nil_append, ← whole] at hOthersOf
  rw [tokens]
  exact ⟨hSame, hOthersOf⟩

end OperatorCalculator
