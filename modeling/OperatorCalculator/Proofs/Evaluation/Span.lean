import OperatorCalculator.Proofs.Evaluation.Alternation

/-
Where operands lie in an expression.

The operands of an alternation lie in the expression in the order in which they are read,
and the text of each is the slice that its span says.  A sign and its word make up one
slice, since nothing stands between them.
-/

set_option autoImplicit false

namespace OperatorCalculator

open Text (byteLength slice?)

/-! ### Operands as slices -/

def Operand.span : Operand → Span
  | .single token => token.span
  | .signed sign word => ⟨sign.span.start, word.span.stop⟩

def Operand.LiesIn (source : String) (operand : Operand) : Prop :=
  slice? source.toList operand.span.start operand.span.stop = some operand.text.toList

/-- What holds of single tokens and of signs with their words holds of all operands that
are read. -/
theorem Operand.Reads.of_tokens {P : Operand → Prop} {tokens rest : List Token}
    {operand : Operand} (hReads : Operand.Reads tokens operand rest)
    (hSingle : ∀ token ∈ tokens, P (.single token))
    (hSigned : ∀ sign ∈ tokens, ∀ word ∈ tokens, sign.isSignOf word = true →
      P (.signed sign word)) : P operand := by
  cases hReads with
  | signed hSign =>
      exact hSigned _ List.mem_cons_self _ (List.mem_cons_of_mem _ List.mem_cons_self) hSign
  | single _ _ => exact hSingle _ List.mem_cons_self
  | endOfInput _ => exact hSingle _ List.mem_cons_self

namespace Alternation

variable {table : PrecedenceTable} {minimum : Nat} {tokens rest : List Token}

theorem Continues.of_tokens {P : Operand → Prop} {others : List (Token × Operand)}
    (hOthers : Continues table minimum tokens others rest)
    (hSingle : ∀ token ∈ tokens, P (.single token))
    (hSigned : ∀ sign ∈ tokens, ∀ word ∈ tokens, sign.isSignOf word = true →
      P (.signed sign word)) : ∀ item ∈ others, P item.2 := by
  induction hOthers with
  | done =>
      intro item member
      contradiction
  | @more operator level operand tokens behind rest others _ _ hOperand _ ih =>
      have behindOperator : tokens ⊆ operator :: tokens := List.subset_cons_self operator tokens
      have behindOperand := List.Subset.trans hOperand.suffix.subset behindOperator
      intro item member
      rcases List.mem_cons.mp member with rfl | deeper
      · apply hOperand.of_tokens
        · exact fun token inside => hSingle token (behindOperator inside)
        · exact fun sign atSign word atWord =>
            hSigned sign (behindOperator atSign) word (behindOperator atWord)
      · apply ih
        · exact fun token inside => hSingle token (behindOperand inside)
        · exact fun sign atSign word atWord =>
            hSigned sign (behindOperand atSign) word (behindOperand atWord)
        · exact deeper

theorem Reads.of_tokens {P : Operand → Prop} {alternation : Alternation Token Operand}
    (hReads : alternation.Reads table minimum tokens rest)
    (hSingle : ∀ token ∈ tokens, P (.single token))
    (hSigned : ∀ sign ∈ tokens, ∀ word ∈ tokens, sign.isSignOf word = true →
      P (.signed sign word)) : ∀ operand ∈ alternation.operands, P operand := by
  rcases hReads with ⟨behind, hFirst, hOthers⟩
  have inside := hFirst.suffix.subset
  intro operand member
  rcases List.mem_cons.mp member with rfl | deeper
  · exact hFirst.of_tokens hSingle hSigned
  · rcases List.mem_map.mp deeper with ⟨item, hItem, rfl⟩
    apply hOthers.of_tokens
    · exact fun token atToken => hSingle token (inside atToken)
    · exact fun sign atSign word atWord => hSigned sign (inside atSign) word (inside atWord)
    · exact hItem

theorem Reads.liesIn {source : String} (hPartition : Partition source tokens)
    {alternation : Alternation Token Operand}
    (hReads : alternation.Reads table minimum tokens rest) :
    ∀ operand ∈ alternation.operands, operand.LiesIn source := by
  apply hReads.of_tokens (P := Operand.LiesIn source)
  · exact hPartition.sliced
  · intro sign atSign word atWord hSign
    have signSlice := hPartition.sliced sign atSign
    have wordSlice := hPartition.sliced word atWord
    rw [Token.start_eq_of_isSignOf hSign] at wordSlice
    rw [Operand.LiesIn, Operand.text, String.toList_append]
    exact Text.slice?_trans signSlice wordSlice

end Alternation

/-! ### Operands in order -/

/-- Tokens stand apart and in order, and nothing lies behind the start of the last. -/
structure InOrder (tokens : List Token) : Prop where
  apart : tokens.Pairwise fun first second => first.span.stop ≤ second.span.start
  ended : ∀ token ∈ tokens, token.isEnd = true → token.span.stop ≤ token.span.start

theorem InOrder.suffix {tokens rest : List Token} (hOrder : InOrder tokens)
    (hRest : rest <:+ tokens) : InOrder rest :=
  ⟨hOrder.apart.sublist hRest.sublist, fun token member => hOrder.ended token (hRest.subset member)⟩

theorem Partition.inOrder {source : String} {tokens : List Token}
    (hPartition : Partition source tokens) : InOrder tokens := by
  constructor
  · exact hPartition.ordered
  · intro token member hEnd
    rcases hPartition.ended with ⟨front, hFront, hInner⟩
    rw [hFront] at member
    rcases List.mem_append.mp member with inFront | atEnd
    · rw [(hInner token inFront).1] at hEnd
      contradiction
    · rw [List.mem_singleton.mp atEnd]
      exact Nat.le_refl source.utf8ByteSize

theorem Operand.Reads.stop_le {tokens rest : List Token} {operand : Operand}
    (hReads : Operand.Reads tokens operand rest) (hOrder : InOrder tokens) :
    ∀ token ∈ rest, operand.span.stop ≤ token.span.start := by
  cases hReads with
  | signed _ => exact (List.pairwise_cons.mp (List.pairwise_cons.mp hOrder.apart).2).1
  | single _ _ => exact (List.pairwise_cons.mp hOrder.apart).1
  | endOfInput hEnd =>
      intro token member
      rw [List.mem_singleton.mp member]
      exact hOrder.ended _ List.mem_cons_self hEnd

namespace Alternation

variable {table : PrecedenceTable} {minimum : Nat} {tokens rest : List Token}

theorem Continues.exists_start {others : List (Token × Operand)}
    (hOthers : Continues table minimum tokens others rest) :
    ∀ item ∈ others, ∃ token ∈ tokens, item.2.span.start = token.span.start := by
  apply hOthers.of_tokens (P := fun operand =>
    ∃ token ∈ tokens, operand.span.start = token.span.start)
  · exact fun token member => ⟨token, member, rfl⟩
  · exact fun sign member word _ _ => ⟨sign, member, rfl⟩

theorem Continues.stop_le {behind : List Token} {operand : Operand}
    {others : List (Token × Operand)} (hOthers : Continues table minimum behind others rest)
    (hReads : Operand.Reads tokens operand behind) (hOrder : InOrder tokens) :
    ∀ other ∈ others.map Prod.snd, operand.span.stop ≤ other.span.start := by
  intro other member
  rcases List.mem_map.mp member with ⟨item, hItem, rfl⟩
  rcases hOthers.exists_start item hItem with ⟨token, hToken, hStart⟩
  rw [hStart]
  exact hReads.stop_le hOrder token hToken

theorem Continues.inOrder {others : List (Token × Operand)}
    (hOthers : Continues table minimum tokens others rest) (hOrder : InOrder tokens) :
    (others.map Prod.snd).Pairwise fun first second => first.span.stop ≤ second.span.start := by
  induction hOthers with
  | done => exact List.Pairwise.nil
  | more _ _ hOperand hBehind ih =>
      have behindOperator := hOrder.suffix (List.suffix_cons _ _)
      rw [List.map_cons, List.pairwise_cons]
      constructor
      · exact hBehind.stop_le hOperand behindOperator
      · exact ih (behindOperator.suffix hOperand.suffix)

theorem Reads.inOrder {alternation : Alternation Token Operand}
    (hReads : alternation.Reads table minimum tokens rest) (hOrder : InOrder tokens) :
    alternation.operands.Pairwise fun first second => first.span.stop ≤ second.span.start := by
  rcases hReads with ⟨behind, hFirst, hOthers⟩
  rw [operands, List.pairwise_cons]
  constructor
  · exact hOthers.stop_le hFirst hOrder
  · exact hOthers.inOrder (hOrder.suffix hFirst.suffix)

end Alternation
end OperatorCalculator
