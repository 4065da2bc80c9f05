import OperatorCalculator.Proofs.PrecedenceTable.Alike
import OperatorCalculator.Proofs.Token.Lexeme

/-
Scanning with tables that are alike.

A scan asks a table only about beginnings of runs of symbols, and these are texts of the
expression.  So tables that have the same operators among those texts cut it into the same
tokens.
-/

set_option autoImplicit false

namespace OperatorCalculator

open PrecedenceTable (AlikeIn)

variable {first second : PrecedenceTable}

/-! ### The tokens of an expression -/

theorem longestOperatorFrom_congr {run : List Char} {seen : String}
    (same : ∀ front, front ≠ [] → front <+: run →
      first.contains (seen ++ String.ofList front) =
        second.contains (seen ++ String.ofList front))
    (count : Nat) (longest : Option Nat) :
    longestOperatorFrom first seen count longest run =
      longestOperatorFrom second seen count longest run := by
  -- Every text that is looked up begins with `seen`, which grows with the run.
  induction run generalizing seen count longest with
  | nil => rfl
  | cons symbol run ih =>
      have atSymbol := same [symbol] (List.cons_ne_nil symbol [])
        (List.cons_prefix_cons.mpr ⟨rfl, List.nil_prefix⟩)
      rw [append_ofList_cons, String.ofList_nil, String.append_empty] at atSymbol
      rw [longestOperatorFrom, longestOperatorFrom, atSymbol]
      apply ih
      intro front _ hFront
      have longer := same (symbol :: front) (List.cons_ne_nil symbol front)
        (List.cons_prefix_cons.mpr ⟨rfl, hFront⟩)
      rwa [append_ofList_cons] at longer

theorem operatorLength_of_alike {run : List Char} (hAlike : AlikeIn run first second) :
    operatorLength first run = operatorLength second run := by
  rw [operatorLength, operatorLength, longestOperatorFrom_congr]
  intro front hSome hFront
  rw [String.empty_append]
  apply hAlike.contains
  constructor
  · simpa using hSome
  · simpa using hFront.isInfix

theorem Lexeme.read_of_alike {characters : List Char}
    (hAlike : AlikeIn characters first second) :
    Lexeme.read first characters = Lexeme.read second characters := by
  cases characters with
  | nil => rfl
  | cons head rest =>
      by_cases hQuote : head = '"'
      · subst hQuote
        rfl
      · have run : head :: rest.takeWhile isSymbol <+: head :: rest :=
          List.cons_prefix_cons.mpr ⟨rfl, List.takeWhile_prefix isSymbol⟩
        rw [read_of_not_quote first hQuote, read_of_not_quote second hQuote,
          operatorLength_of_alike (hAlike.mono run.isInfix)]

namespace Scanner

theorem next_of_alike {scanner : Scanner} (hAlike : AlikeIn scanner.remaining first second) :
    scanner.next first = scanner.next second := by
  have behindGap := hAlike.mono (List.dropWhile_suffix isGap).isInfix
  rw [next, next, Lexeme.read_of_alike behindGap]

theorem remaining_next_suffix (table : PrecedenceTable) (scanner : Scanner) :
    (scanner.next table).2.remaining <:+ scanner.remaining := by
  have whole := remaining_eq_append table scanner
  rw [← List.append_assoc] at whole
  exact ⟨_, whole.symm⟩

theorem drain_of_alike {scanner : Scanner} (hAlike : AlikeIn scanner.remaining first second) :
    (scanner.drain first).1 = (scanner.drain second).1 := by
  induction scanner using next_induction first with
  | atEnd scanner hEnd =>
      have same := next_of_alike hAlike
      rw [drain_of_isEnd hEnd]
      rw [same] at hEnd ⊢
      rw [drain_of_isEnd hEnd]
  | inFront scanner hToken ih =>
      have same := next_of_alike hAlike
      have rest := ih (hAlike.mono (remaining_next_suffix first scanner).isInfix)
      rw [drain_of_not_isEnd hToken, rest]
      rw [same] at hToken ⊢
      rw [drain_of_not_isEnd hToken]

end Scanner

theorem tokenize_of_alike {source : String} (hAlike : AlikeIn source.toList first second) :
    tokenize first source = tokenize second source :=
  Scanner.drain_of_alike hAlike

/-! ### The texts of tokens -/

/-- The text of every token, the end of input apart, occurs among the characters. -/
def TextsOccurIn (characters : List Char) (tokens : List Token) : Prop :=
  ∀ token ∈ tokens, token.isEnd = false → OccursIn characters token.text

theorem TextsOccurIn.suffix {characters : List Char} {tokens rest : List Token}
    (hTexts : TextsOccurIn characters tokens) (hRest : rest <:+ tokens) :
    TextsOccurIn characters rest :=
  fun token member => hTexts token (hRest.subset member)

theorem Cuts.textsOccurIn {offset : Nat} {characters : List Char} {tokens : List Token}
    (hCuts : Cuts offset characters tokens) : TextsOccurIn characters tokens := by
  induction hCuts with
  | last hGap =>
      intro token member hToken
      obtain rfl := List.mem_singleton.mp member
      contradiction
  | @next offset gap rest token tokens hGap hToken hText hSpan _ ih =>
      intro other member hOther
      rcases List.mem_cons.mp member with rfl | deeper
      · exact ⟨hText, gap, rest, List.append_assoc _ _ _⟩
      · have behind : rest <:+ gap ++ (token.text.toList ++ rest) :=
          (List.suffix_append _ _).trans (List.suffix_append _ _)
        exact (ih other deeper hOther).mono behind.isInfix

theorem textsOccurIn_tokenize (table : PrecedenceTable) (source : String) :
    TextsOccurIn source.toList (tokenize table source) :=
  ((Scanner.start source).cuts_drain table).textsOccurIn

end OperatorCalculator
