import OperatorCalculator.Proofs.Evaluation.Shape
import OperatorCalculator.Proofs.Token.Truncated
import OperatorCalculator.Trace

/-
Text behind an evaluation.

An evaluation stops at a token, and the expression may be cut off there: the evaluation of
its beginning reads the same operands and operators, since a lexeme that it took in ends
where it did.  What it looked at without taking it in, the first token behind, only had to
be no operator, and the end of input is none.  With a part of the text behind it the
beginning has a fault of its own, so it is the longest one that passes the check.
-/

set_option autoImplicit false

namespace OperatorCalculator

/-! ### Another token in the place where reading stops -/

/-- Every sign of the other token would be a sign of this one as well. -/
def Token.HasSignsOf (token other : Token) : Prop :=
  ∀ sign : Token, sign.isSignOf other = true → sign.isSignOf token = true

theorem Token.hasSignsOf_of_isEnd {token other : Token} (hEnd : other.isEnd = true) :
    token.HasSignsOf other := by
  intro sign hSign
  rw [(Token.isEnd_eq_false_of_isSignOf hSign).2] at hEnd
  contradiction

theorem Token.hasSignsOf_of_kind {token other : Token} (hKind : other.kind = token.kind)
    (hStart : other.span.start = token.span.start) : token.HasSignsOf other := by
  intro sign hSign
  rwa [isSignOf, hKind, hStart] at hSign

theorem Operand.Reads.replace {tokens front after : List Token} {operand : Operand}
    {token other : Token} (hReads : Operand.Reads tokens operand (front ++ token :: after))
    (hToken : token.isEnd = false) (hOther : token.HasSignsOf other) (others : List Token) :
    ∃ taken, tokens = taken ++ (front ++ token :: after) ∧
      Operand.Reads (taken ++ (front ++ other :: others)) operand (front ++ other :: others) := by
  generalize hBehind : front ++ token :: after = behind at hReads
  cases hReads with
  | @signed sign word rest hSign => exact ⟨[sign, word], rfl, .signed hSign⟩
  | @single first next rest hFirst hSign =>
      refine ⟨[first], rfl, ?_⟩
      cases front with
      | nil =>
          rcases List.cons.inj hBehind with ⟨rfl, _⟩
          have noSign : first.isSignOf other = false := by
            cases hTaken : first.isSignOf other with
            | false => rfl
            | true =>
                rw [hOther first hTaken] at hSign
                contradiction
          exact .single hFirst noSign
      | cons inside front =>
          rcases List.cons.inj hBehind with ⟨rfl, _⟩
          exact .single hFirst hSign
  | @endOfInput last hEnd =>
      cases front with
      | nil =>
          rcases List.cons.inj hBehind with ⟨rfl, _⟩
          rw [hToken] at hEnd
          contradiction
      | cons inside front => simp at hBehind

namespace Alternation

variable {table : PrecedenceTable} {minimum : Nat} {tokens after : List Token}
  {token other : Token}

theorem Continues.replace {taken : List (Token × Operand)}
    (hOthers : Continues table minimum tokens taken (token :: after))
    (hToken : token.isEnd = false) (hOther : token.HasSignsOf other) (others : List Token) :
    ∃ front, tokens = front ++ token :: after ∧
      Continues table minimum (front ++ other :: others) taken (other :: others) := by
  generalize hRest : token :: after = rest at hOthers
  induction hOthers with
  | done => exact ⟨[], by rw [← hRest]; rfl, .done⟩
  | @more operator level operand tokens behind rest taken hLevel hRank hOperand _ ih =>
      rcases ih hRest with ⟨front, rfl, hFront⟩
      rw [← hRest] at hOperand ⊢
      rcases hOperand.replace hToken hOther others with ⟨inOperand, rfl, hReads⟩
      refine ⟨operator :: (inOperand ++ front), by simp, ?_⟩
      rw [List.cons_append, List.append_assoc]
      exact .more hLevel hRank hReads hFront

theorem Reads.replace {alternation : Alternation Token Operand}
    (hReads : alternation.Reads table minimum tokens (token :: after))
    (hToken : token.isEnd = false) (hOther : token.HasSignsOf other) (others : List Token) :
    ∃ front, tokens = front ++ token :: after ∧
      alternation.Reads table minimum (front ++ other :: others) (other :: others) := by
  rcases hReads with ⟨behind, hFirst, hOthers⟩
  rcases hOthers.replace hToken hOther others with ⟨front, rfl, hFront⟩
  rcases hFirst.replace hToken hOther others with ⟨inOperand, rfl, hOperand⟩
  refine ⟨inOperand ++ front, (List.append_assoc _ _ _).symm, _, ?_, hFront⟩
  rw [List.append_assoc]
  exact hOperand

end Alternation

/-! ### An expression that is cut off where its evaluation stops -/

open Alternation (StopsAt)
open Scanner (CutsAt)
open Text (byteLength slice?)

variable {table : PrecedenceTable} {source : String} {alternation : Alternation Token Operand}
  {before after : List Token} {token : Token} {front back short : List Char}

/-- The same operands and operators are read in what is left of an expression. -/
theorem Alternation.Reads.cut
    (hReads : alternation.Reads table 1 (tokenize table source) (token :: after))
    (hTokens : tokenize table source = before ++ token :: after)
    (hCuts : CutsAt table (.start source) before token front back) (hToken : token.isEnd = false)
    (hShort : short <+: back)
    (hSigns : token.HasSignsOf (Scanner.next table ⟨token.span.start, short⟩).1) :
    alternation.Reads table 1 (tokenize table (String.ofList (front ++ short)))
      (Scanner.drain table ⟨token.span.start, short⟩).1 := by
  have tokens : tokenize table (String.ofList (front ++ short)) =
      before ++ (Scanner.drain table ⟨token.span.start, short⟩).1 := by
    rw [tokenize, Scanner.start, String.toList_ofList]
    exact hCuts.truncates short hShort
  rcases Scanner.exists_drain_eq_cons table ⟨token.span.start, short⟩ with ⟨behind, hDrain⟩
  rcases hReads.replace hToken hSigns behind with ⟨taken, hTaken, hReplaced⟩
  obtain rfl : before = taken := List.append_cancel_right (hTokens.symm.trans hTaken)
  rw [tokens, hDrain]
  exact hReplaced

/-- Part of a token where an operator should be is no operator, or nothing is behind it. -/
theorem faultBehindOperand?_short (hCuts : CutsAt table (.start source) before token front back)
    (hToken : token.isEnd = false) (hUnknown : table.contains token.text = false)
    (hShort : short <+: back) (hSome : short ≠ []) :
    token.HasSignsOf (Scanner.next table ⟨token.span.start, short⟩).1 ∧
      faultBehindOperand? table (Scanner.drain table ⟨token.span.start, short⟩).1 ≠ none := by
  rcases hCuts.next_short hToken hUnknown hShort hSome with ⟨hKind, hStart, hText⟩
  refine ⟨Token.hasSignsOf_of_kind hKind hStart, ?_⟩
  have inView : (Scanner.next table ⟨token.span.start, short⟩).1.isEnd = false := by
    rwa [Token.isEnd, hKind]
  rw [Scanner.drain_of_not_isEnd inView, faultBehindOperand?, inView, if_neg Bool.false_ne_true]
  cases hOperator : (Scanner.next table ⟨token.span.start, short⟩).1.isOperatorOf table with
  | false =>
      rw [if_neg Bool.false_ne_true]
      exact Option.some_ne_none _
  | true =>
      rcases hText with whole | nothing
      · rw [Token.isOperatorOf, whole, hUnknown, Bool.and_false] at hOperator
        contradiction
      · have last : (Scanner.drain table (Scanner.next table ⟨token.span.start, short⟩).2).1 =
            [Token.endAt (Scanner.next table ⟨token.span.start, short⟩).2.offset] := by
          rw [← Scanner.drain_nil table, ← nothing]
        rw [if_pos rfl, last, faultAtOperand?,
          Token.operandFault?_of_isEnd_or_contains (Or.inl rfl)]
        exact Option.some_ne_none _

/-- Where reading stops an expression can be cut off.  What is left has the same operands and
operators and nothing behind them, and any part of the text behind is a fault. -/
theorem exists_front_of_reads {cursor : Cursor}
    (hReads : alternation.Reads table 1 (tokenize table source) (cursor.upcoming table))
    (hStops : StopsAt table 1 (cursor.upcoming table)) :
    ∃ front back, source.toList = front ++ back ∧ cursor.current.span.start = byteLength front ∧
      alternation.Reads table 1 (tokenize table (String.ofList front))
        [Token.endAt cursor.current.span.start] ∧
      ∀ short, short <+: back → short ≠ [] →
        ∃ rest, alternation.Reads table 1 (tokenize table (String.ofList (front ++ short))) rest ∧
          faultBehindOperand? table rest ≠ none := by
  rcases cursor.upcoming_eq_cons table with ⟨after, hAfter⟩
  rcases hReads.suffix with ⟨before, hTokens⟩
  rw [hAfter] at hTokens
  rcases Scanner.exists_cutsAt hTokens.symm with ⟨front, back, hCuts⟩
  have start : cursor.current.span.start = byteLength front :=
    hCuts.start.trans (Nat.zero_add _)
  refine ⟨front, back, hCuts.split, start, ?_⟩
  cases hEnd : cursor.current.isEnd with
  | true =>
      have nothing := hCuts.back_eq_nil hEnd
      have last : cursor.current = Token.endAt cursor.current.span.start := by
        have inView := hCuts.inView
        rw [nothing] at inView
        exact inView.symm
      have split : source.toList = front := by
        have split := hCuts.split
        rwa [nothing, List.append_nil] at split
      constructor
      · rw [← last, ← split, String.ofList_toList, ← Cursor.upcoming_of_isEnd hEnd]
        exact hReads
      · intro short hShort hSome
        rw [nothing] at hShort
        exact absurd (List.prefix_nil.mp hShort) hSome
  | false =>
      rw [hAfter] at hReads hStops
      have unknown : table.contains cursor.current.text = false := by
        have noOperator := Token.isOperatorOf_eq_false_of_stopsAt hStops
        rwa [Token.isOperatorOf, hEnd, Bool.not_false, Bool.true_and] at noOperator
      constructor
      · have cut := hReads.cut hTokens.symm hCuts hEnd List.nil_prefix
          (Token.hasSignsOf_of_isEnd rfl)
        rwa [List.append_nil, Scanner.drain_nil] at cut
      · intro short hShort hSome
        rcases faultBehindOperand?_short hCuts hEnd unknown hShort hSome with ⟨hSigns, hFault⟩
        exact ⟨_, hReads.cut hTokens.symm hCuts hEnd hShort hSigns, hFault⟩

/-! ### What an evaluation makes of the beginning -/

variable {V : Type} (interpretation : PureInterpretation V)

theorem Cursor.stop_of_reads {rest : List Token}
    (hReads : alternation.Reads table 1 (tokenize table source) rest)
    (hStops : StopsAt table 1 rest) :
    (stop interpretation table source).upcoming table = rest ∧
      (Grouping.ofSource table source).flatten = alternation.texts := by
  have groups := groups_stop interpretation table source
  rcases groups.reads with ⟨other, hOther, hFlatten⟩
  rcases hOther.unique groups.stops hReads hStops with ⟨rfl, hRest⟩
  exact ⟨hRest, hFlatten⟩

theorem evaluate_eq_of_reads {otherAlternation : Alternation Token Operand} {other : String}
    {rest otherRest : List Token}
    (hReads : alternation.Reads table 1 (tokenize table source) rest)
    (hStops : StopsAt table 1 rest)
    (hOther : otherAlternation.Reads table 1 (tokenize table other) otherRest)
    (hOtherStops : StopsAt table 1 otherRest) (hTexts : otherAlternation.texts = alternation.texts)
    {m : Type → Type} [Monad m] [LawfulMonad m] (steps : Interpretation m V) :
    evaluate steps table other = evaluate steps table source := by
  have same : Grouping.ofSource table other = Grouping.ofSource table source := by
    apply (Cursor.groups_stop Grouping.interpretation table other).follows.unique
      (Cursor.groups_stop Grouping.interpretation table source).follows
    rw [(Cursor.stop_of_reads Grouping.interpretation hReads hStops).2,
      (Cursor.stop_of_reads Grouping.interpretation hOther hOtherStops).2, hTexts]
  rw [evaluate_eq_fold, evaluate_eq_fold]
  exact congrArg (Grouping.fold steps) same

/-- Nothing is wrong with the operands if the check finds fault with the text behind them. -/
theorem findSome?_fault?_of_trailingInput {cursor : Cursor} {found : String} {position : Nat}
    (hReads : alternation.Reads table 1 (tokenize table source) (cursor.upcoming table))
    (hStops : StopsAt table 1 (cursor.upcoming table))
    (hTrailing : shapeFault? table source = some ⟨.trailingInput found, position⟩) :
    alternation.operands.findSome? (Operand.fault? table) = none ∧
      position = cursor.current.span.start := by
  rw [shapeFault?, faultAtOperand?_eq_findSome? hReads hStops, faultOfRest?_upcoming,
    Option.or_eq_some_iff] at hTrailing
  rcases hTrailing with atOperand | ⟨good, atStop⟩
  · exact absurd atOperand findSome?_fault?_ne_trailingInput
  · split at atStop
    · contradiction
    · exact ⟨good, (congrArg Fault.position (Option.some.inj atStop)).symm⟩

/-- What begins with good operands and goes on with a fault is faulty, whatever is wrong behind
the operands. -/
theorem shapeFault?_ne_none_of_longer {longer : String}
    (good : alternation.operands.findSome? (Operand.fault? table) = none)
    (hFaulty : ∀ short, short <+: back → short ≠ [] →
      ∃ rest, alternation.Reads table 1 (tokenize table (String.ofList (front ++ short))) rest ∧
        faultBehindOperand? table rest ≠ none)
    (hFront : front <+: longer.toList) (hLonger : longer.toList <+: front ++ back)
    (hOther : longer ≠ String.ofList front) : shapeFault? table longer ≠ none := by
  rcases hFront with ⟨short, hShort⟩
  have inBack : short <+: back := by
    rwa [← hShort, List.prefix_append_right_inj] at hLonger
  have something : short ≠ [] := by
    rintro rfl
    rw [List.append_nil] at hShort
    rw [hShort, String.ofList_toList] at hOther
    contradiction
  rcases hFaulty short inBack something with ⟨rest, hRest, hFault⟩
  rw [hShort, String.ofList_toList] at hRest
  rw [shapeFault?, faultAtOperand?_eq_or hRest, good, Option.none_or]
  exact hFault

/-- The text from the token on at which an evaluation stops makes no difference: without it the
evaluation takes the same steps, gives the same value and comes to the end of input.  If the
check finds nothing but this text to be wrong, then the text before it passes, is evaluated
strictly to that value, and no longer beginning of the expression passes. -/
theorem evaluation_ignores_text_behind_stop (table : PrecedenceTable) (source : String) :
    let stop := (Cursor.stop interpretation table source).current
    ∃ front : String,
      slice? source.toList 0 stop.span.start = some front.toList ∧
      (evaluate (interpretation.traced .everything) table front).run #[] =
        (evaluate (interpretation.traced .everything) table source).run #[] ∧
      (∀ {m : Type → Type} [Monad m] [LawfulMonad m] {W : Type} (steps : Interpretation m W),
        evaluate steps table front = evaluate steps table source) ∧
      (Cursor.stop interpretation table front).current = Token.endAt stop.span.start ∧
      ∀ found position, shapeFault? table source = some ⟨.trailingInput found, position⟩ →
        position = stop.span.start ∧
          shapeFault? table front = none ∧
          evaluateStrict interpretation table front =
            .ok (Id.run (evaluate interpretation table source)) ∧
          ∀ longer : String, front.toList <+: longer.toList → longer.toList <+: source.toList →
            longer ≠ front → shapeFault? table longer ≠ none := by
  intro stop
  have groups := Cursor.groups_stop interpretation table source
  rcases groups.reads with ⟨alternation, hReads, _⟩
  rcases exists_front_of_reads hReads groups.stops with
    ⟨front, back, hSplit, hStart, hFront, hLonger⟩
  have endsThere : StopsAt table 1 [Token.endAt stop.span.start] :=
    Alternation.stopsAt_of_isEnd rfl []
  have same : ∀ {m : Type → Type} [Monad m] [LawfulMonad m] {W : Type}
      (steps : Interpretation m W),
      evaluate steps table (String.ofList front) = evaluate steps table source :=
    fun steps => evaluate_eq_of_reads hReads groups.stops hFront endsThere rfl steps
  refine ⟨String.ofList front, ?_, ?_, same, ?_, ?_⟩
  · have found := Text.slice?_append [] front back
    rw [String.toList_ofList, hSplit, hStart]
    rwa [List.nil_append, Text.byteLength_nil, Nat.zero_add] at found
  · rw [same]
  · have inView := Cursor.head?_upcoming table
      (Cursor.stop interpretation table (String.ofList front))
    rw [(Cursor.stop_of_reads interpretation hFront endsThere).1] at inView
    exact (Option.some.inj inView).symm
  · intro found position hTrailing
    rcases findSome?_fault?_of_trailingInput hReads groups.stops hTrailing with ⟨good, hPosition⟩
    have passes : shapeFault? table (String.ofList front) = none := by
      rw [shapeFault?, faultAtOperand?_eq_findSome? hFront endsThere, good]
      rfl
    refine ⟨hPosition, passes, ?_, ?_⟩
    · rw [evaluateStrict, passes, same]
      rfl
    · intro longer hFrontLonger hLongerSource hOther
      rw [String.toList_ofList] at hFrontLonger
      rw [hSplit] at hLongerSource
      exact shapeFault?_ne_none_of_longer good hLonger hFrontLonger hLongerSource hOther

/-- An operator that the table does not know is text behind the evaluation, and so is its
beginning. -/
example :
    shapeFault? .standard "1 + -2 =>3" = some ⟨.trailingInput "=>", 7⟩ ∧
      shapeFault? .standard "1 + -2 " = none := by
  decide +kernel

end OperatorCalculator
