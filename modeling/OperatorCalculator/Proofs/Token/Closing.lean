import Mathlib.Order.Bounds.Defs
import OperatorCalculator.Proofs.Text.Slice
import OperatorCalculator.Proofs.Token.Neighbours

/-
The double quote that closes a quoted text.

The scanner pairs each backslash with the character behind it, from the left to the right.
Seen from a double quote it is enough to count the backslashes in front of it: the text is
closed by the first double quote behind an even number of them.  A quoted token tells by its
own characters whether there was one.
-/

set_option autoImplicit false

namespace OperatorCalculator

open Text (byteLength slice?)

/-! ### The first double quote that closes a text -/

/-- Before the double quote that closes inert characters no other stands behind an even number
of backslashes. -/
theorem Inert.isPrefix_of_even {body inner after other : List Char} (hBody : Inert body)
    (same : body ++ '"' :: after = inner ++ '"' :: other)
    (even : trailingBackslashes inner % 2 = 0) : body <+: inner := by
  rcases List.append_eq_append_iff.mp same with ⟨between, hInner, _⟩ | ⟨between, rfl, hBetween⟩
  · exact ⟨between, hInner.symm⟩
  · cases between with
    | nil => exact ⟨[], by rw [List.append_nil, List.append_nil]⟩
    | cons first between =>
        rcases List.cons.inj hBetween with ⟨rfl, _⟩
        have odd := hBody.odd_backslashes
        omega

/-! ### Closing quotes by their offsets -/

/-- A quoted text that opens at `start` is closed by a double quote at `stop`.  As the opening
quote is part of what is in front, backslashes before that are not counted. -/
structure ClosesAt (source : String) (start stop : Nat) : Prop where
  behind : start < stop
  quote : slice? source.toList stop (stop + 1) = some ['"']
  even : ∃ inner, slice? source.toList start stop = some inner ∧
    trailingBackslashes inner % 2 = 0

variable {source : String} {front body : List Char}

theorem closesAt_of_split {inner after : List Char}
    (hSplit : source.toList = front ++ '"' :: (inner ++ '"' :: after))
    (even : trailingBackslashes inner % 2 = 0) :
    ClosesAt source (byteLength front) (byteLength front + byteLength ('"' :: inner)) := by
  have atQuote := Text.slice?_append (front ++ '"' :: inner) ['"'] after
  have atInner := Text.slice?_append front ('"' :: inner) ('"' :: after)
  refine ⟨?_, ?_, '"' :: inner, ?_, ?_⟩
  · have wide := Text.byteLength_pos (List.cons_ne_nil '"' inner)
    omega
  · rw [Text.byteLength_append, List.append_assoc] at atQuote
    rw [hSplit]
    exact atQuote
  · rw [hSplit]
    exact atInner
  · rwa [trailingBackslashes_cons_of_ne (by decide)]

theorem ClosesAt.exists_split {stop : Nat} (hSplit : source.toList = front ++ '"' :: body)
    (hCloses : ClosesAt source (byteLength front) stop) :
    ∃ inner after, body = inner ++ '"' :: after ∧
      stop = byteLength front + byteLength ('"' :: inner) ∧
      trailingBackslashes inner % 2 = 0 := by
  rcases hCloses.even with ⟨text, hText, even⟩
  rcases Text.slice?_eq_some_iff.mp hText with ⟨other, behind, hBehind, hStart, hStop⟩
  rcases Text.slice?_eq_some_iff.mp hCloses.quote with ⟨before, after, hAfter, hBefore, _⟩
  have atStart := Text.append_inj_of_byteLength_eq (hSplit.symm.trans hBehind) hStart.symm
  rw [← List.append_assoc] at hBehind
  rw [← Text.byteLength_append] at hStop
  have atStop := Text.append_inj_of_byteLength_eq (hBehind.symm.trans hAfter)
    (hStop.trans hBefore.symm)
  cases text with
  | nil =>
      have later := hCloses.behind
      rw [List.append_nil] at hStop
      omega
  | cons first inner =>
      rcases List.cons.inj atStart.2 with ⟨rfl, hBody⟩
      refine ⟨inner, after, ?_, ?_, ?_⟩
      · rw [hBody, atStop.2]
        rfl
      · rw [← hStop, Text.byteLength_append, hStart]
      · rwa [trailingBackslashes_cons_of_ne (by decide)] at even

theorem isLeast_closesAt {inner after : List Char} (hInner : Inert inner)
    (hSplit : source.toList = front ++ '"' :: (inner ++ '"' :: after)) :
    IsLeast {stop | ClosesAt source (byteLength front) stop}
      (byteLength front + byteLength ('"' :: inner)) := by
  constructor
  · exact closesAt_of_split hSplit hInner.even_backslashes
  · intro stop hCloses
    rcases hCloses.exists_split hSplit with ⟨other, behind, same, rfl, even⟩
    rcases hInner.isPrefix_of_even same even with ⟨between, rfl⟩
    rw [← List.cons_append, Text.byteLength_append]
    omega

theorem not_closesAt_of_unclosed (hOpen : Unclosed body)
    (hSplit : source.toList = front ++ '"' :: body) (stop : Nat) :
    ¬ClosesAt source (byteLength front) stop := by
  intro hCloses
  rcases hCloses.exists_split hSplit with ⟨inner, after, hBody, _, even⟩
  have odd := hOpen inner after hBody
  omega

/-! ### Quoted tokens -/

variable {table : PrecedenceTable} {token : Token}

/-- What no double quote closes is all that is left of the expression. -/
theorem ends_at_end_of_unclosed {before : List Token}
    (hTokens : tokenize table source =
      before ++ token :: (Scanner.drain table ⟨token.span.stop, []⟩).1)
    (lies : token.LiesBetween table source front []) :
    token.span.stop = source.utf8ByteSize ∧
      tokenize table source = before ++ [token, Token.endAt source.utf8ByteSize] := by
  have stop : token.span.stop = source.utf8ByteSize := by
    rw [← Text.byteLength_toList, lies.split, List.append_nil, Text.byteLength_append, lies.span]
  rw [Scanner.drain_nil, stop] at hTokens
  exact ⟨stop, hTokens⟩

/-- A quoted token goes to the first double quote that closes it and is terminated, or there
is none, and it is the last token, goes to the end of the expression and is not. -/
theorem quoted_token_ends_at_first_closing_quote (hToken : token ∈ tokenize table source)
    (hQuoted : token.kind = .quoted) :
    slice? source.toList token.span.start token.span.stop = some token.text.toList ∧
      ((∃ stop, IsLeast {stop | ClosesAt source token.span.start stop} stop ∧
          token.span.stop = stop + 1 ∧ token.isTerminated = true) ∨
        ((∀ stop, ¬ClosesAt source token.span.start stop) ∧
          token.span.stop = source.utf8ByteSize ∧
          (∃ before, tokenize table source =
            before ++ [token, Token.endAt source.utf8ByteSize]) ∧
          token.isTerminated = false)) := by
  have hEnd := Token.isEnd_eq_false_of_kind hQuoted TokenKind.noConfusion
  rcases Token.exists_liesBetween hToken hEnd with ⟨before, front, rest, hTokens, lies⟩
  have hTakes := lies.takes
  have hSplit := lies.split
  have taken := Text.slice?_append front token.text.toList rest
  rw [← hSplit] at taken
  rw [hQuoted] at hTakes
  rw [Token.isTerminated_of_quoted hQuoted, lies.span]
  refine ⟨taken, ?_⟩
  rcases hTakes.quoted_cases with ⟨inner, hInner, hText⟩ | ⟨body, hOpen, hText, rfl⟩
  · apply Or.inl
    rw [hText]
    rw [hText, List.cons_append, List.append_assoc] at hSplit
    refine ⟨_, isLeast_closesAt hInner hSplit, ?_, hInner.endsInQuote⟩
    rw [← List.cons_append, Text.byteLength_append, Nat.add_assoc]
    rfl
  · apply Or.inr
    have ends := ends_at_end_of_unclosed hTokens lies
    rw [hText]
    rw [hText, List.append_nil] at hSplit
    refine ⟨not_closesAt_of_unclosed hOpen hSplit, ?_, ⟨before, ends.2⟩, ?_⟩
    · rw [← ends.1, lies.span, hText]
    · exact hOpen.endsInQuote_eq_false

/-- Behind four backslashes and a hidden double quote, and in a text that ends with the
backslash of an escape. -/
theorem quoted_tokens_end_behind_backslashes :
    let source := "π \"é\\\\\\\"\\\\\" \"\\\\\\\"\\"
    let closed : Token := ⟨.quoted, "\"é\\\\\\\"\\\\\"", ⟨3, 13⟩⟩
    let opened : Token := ⟨.quoted, "\"\\\\\\\"\\", ⟨14, 20⟩⟩
    closed ∈ tokenize .standard source ∧ opened ∈ tokenize .standard source ∧
      IsLeast {stop | ClosesAt source 3 stop} 12 ∧ ∀ stop, ¬ClosesAt source 14 stop := by
  intro source closed opened
  have closedMember : closed ∈ tokenize .standard source := by decide +kernel
  have openedMember : opened ∈ tokenize .standard source := by decide +kernel
  refine ⟨closedMember, openedMember, ?_, ?_⟩
  · rcases (quoted_token_ends_at_first_closing_quote closedMember rfl).2 with
      ⟨stop, hLeast, hStop, _⟩ | ⟨_, _, _, hTerminated⟩
    · cases hStop
      exact hLeast
    · exact absurd hTerminated (by decide +kernel)
  · rcases (quoted_token_ends_at_first_closing_quote openedMember rfl).2 with
      ⟨_, _, _, hTerminated⟩ | ⟨hNone, _⟩
    · exact absurd hTerminated (by decide +kernel)
    · exact hNone

end OperatorCalculator
