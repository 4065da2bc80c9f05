import OperatorCalculator.Proofs.Evaluation.Truncated
import OperatorCalculator.Proofs.Token.Spacing

/-
Evaluating with other gaps.

Of where tokens lie an evaluation only sees whether a word stands right behind a sign, and
that does not change if gaps are replaced by other gaps.  So the same operands and operators
are read from both texts, and a check that finds fault with one finds the same fault with the
other, at the token in the same place.
-/

set_option autoImplicit false

namespace OperatorCalculator

variable {table : PrecedenceTable} {tokens others : List Token} {token other : Token}

/-! ### What is asked of a token -/

namespace Token

theorem isEnd_of_kind (hKind : other.kind = token.kind) : other.isEnd = token.isEnd := by
  rw [isEnd, isEnd, hKind]

theorem level?_of_sameLexeme (hKind : other.kind = token.kind) (hText : other.text = token.text) :
    other.level? table = token.level? table := by
  rw [level?, level?, isEnd_of_kind hKind, hText]

theorem isOperatorOf_of_sameLexeme (hKind : other.kind = token.kind)
    (hText : other.text = token.text) : other.isOperatorOf table = token.isOperatorOf table := by
  rw [isOperatorOf, isOperatorOf, isEnd_of_kind hKind, hText]

theorem isTerminated_of_sameLexeme (hKind : other.kind = token.kind)
    (hText : other.text = token.text) : other.isTerminated = token.isTerminated := by
  rw [isTerminated, isTerminated, hKind, hText]

end Token

namespace SameLexemes

variable {next otherNext : Token}

theorem isSignOf_eq
    (hSame : SameLexemes (token :: next :: tokens) (other :: otherNext :: others)) :
    other.isSignOf otherNext = token.isSignOf next := by
  cases hSame with
  | cons hKind hText hTouch hRest =>
      cases hRest with
      | cons hNextKind _ _ _ =>
          have touch := hTouch next otherNext rfl rfl
          have adjacent : (otherNext.span.start == other.span.stop) =
              (next.span.start == token.span.stop) := by
            rw [Bool.eq_iff_iff, beq_iff_eq, beq_iff_eq]
            exact touch
          rw [Token.isSignOf, Token.isSignOf, hKind, hText, hNextKind, adjacent]

end SameLexemes

/-! ### What is read -/

theorem Operand.Reads.sameLexemes {behind : List Token} {operand : Operand}
    (hReads : Operand.Reads tokens operand behind) (hSame : SameLexemes tokens others) :
    ∃ otherOperand otherBehind, Operand.Reads others otherOperand otherBehind ∧
      otherOperand.text = operand.text ∧ SameLexemes behind otherBehind := by
  cases hReads with
  | signed hSign =>
      have signs := hSame
      rcases hSame with _ | ⟨_, hText, _, _ | ⟨_, hNextText, _, hRest⟩⟩
      refine ⟨.signed _ _, _, .signed (signs.isSignOf_eq.trans hSign), ?_, hRest⟩
      rw [Operand.text, Operand.text, hText, hNextText]
  | single hToken hSign =>
      have signs := hSame
      rcases hSame with _ | ⟨hKind, hText, _, hRest⟩
      have behind := hRest
      rcases hRest with _ | ⟨_, _, _, _⟩
      have inFront := (Token.isEnd_of_kind hKind).trans hToken
      exact ⟨.single _, _, .single inFront (signs.isSignOf_eq.trans hSign), hText, behind⟩
  | endOfInput hEnd =>
      have whole := hSame
      rcases hSame with _ | ⟨hKind, hText, _, _ | _⟩
      exact ⟨.single _, _, .endOfInput ((Token.isEnd_of_kind hKind).trans hEnd), hText, whole⟩

namespace Alternation

variable {minimum : Nat} {rest : List Token}

theorem Continues.sameLexemes {taken : List (Token × Operand)}
    (hTaken : Continues table minimum tokens taken rest) (hSame : SameLexemes tokens others) :
    ∃ otherTaken otherRest, Continues table minimum others otherTaken otherRest ∧
      textsOf otherTaken = textsOf taken ∧ SameLexemes rest otherRest := by
  induction hTaken generalizing others with
  | done => exact ⟨[], others, .done, rfl, hSame⟩
  | more hLevel hRank hOperand _ ih =>
      cases hSame with
      | @cons _ operator _ _ hKind hText _ hRest =>
          rcases hOperand.sameLexemes hRest with
            ⟨operand, otherBehind, hOtherOperand, hOperandText, hBehind⟩
          rcases ih hBehind with ⟨otherTaken, otherRest, hOther, hTexts, hEnd⟩
          have level := (Token.level?_of_sameLexeme hKind hText).trans hLevel
          refine ⟨(operator, operand) :: otherTaken, otherRest,
            .more level hRank hOtherOperand hOther, ?_, hEnd⟩
          simp only [textsOf, List.map_cons, hText, hOperandText] at hTexts ⊢
          rw [hTexts]

theorem Reads.sameLexemes {alternation : Alternation Token Operand}
    (hReads : alternation.Reads table minimum tokens rest) (hSame : SameLexemes tokens others) :
    ∃ (otherAlternation : Alternation Token Operand) (otherRest : List Token),
      otherAlternation.Reads table minimum others otherRest ∧
        otherAlternation.texts = alternation.texts ∧ SameLexemes rest otherRest := by
  rcases hReads with ⟨behind, hFirst, hTaken⟩
  rcases hFirst.sameLexemes hSame with ⟨first, otherBehind, hOtherFirst, hText, hBehind⟩
  rcases hTaken.sameLexemes hBehind with ⟨taken, otherRest, hOther, hTexts, hRest⟩
  refine ⟨⟨first, taken⟩, otherRest, ⟨otherBehind, hOtherFirst, hOther⟩, ?_, hRest⟩
  rw [texts_eq, texts_eq, hText, hTexts]

theorem StopsAt.sameLexemes (hStops : StopsAt table minimum tokens)
    (hSame : SameLexemes tokens others) : StopsAt table minimum others := by
  intro other hOther level hLevel
  cases hSame with
  | nil => contradiction
  | cons hKind hText _ _ =>
      cases hOther
      rw [Token.level?_of_sameLexeme hKind hText] at hLevel
      exact hStops _ rfl level hLevel

end Alternation

theorem evaluate_of_sameLexemes {m : Type → Type} [Monad m] [LawfulMonad m] {V : Type}
    (steps : Interpretation m V) {source rebuilt : String}
    (hSame : SameLexemes (tokenize table source) (tokenize table rebuilt)) :
    evaluate steps table rebuilt = evaluate steps table source := by
  have groups := Cursor.groups_stop Grouping.interpretation table source
  rcases groups.reads with ⟨alternation, hReads, _⟩
  rcases hReads.sameLexemes hSame with ⟨otherAlternation, otherRest, hOther, hTexts, hRest⟩
  exact evaluate_eq_of_reads hReads groups.stops hOther (groups.stops.sameLexemes hRest) hTexts
    steps

/-! ### The fault of a shape -/

/-- A fault of the same cause, at the other of two tokens in the same place. -/
structure Fault.Moved (places : List (Token × Token)) (fault other : Fault) : Prop where
  cause : other.cause = fault.cause
  position : ∃ place ∈ places,
    fault.position = place.1.span.start ∧ other.position = place.2.span.start

variable {places : List (Token × Token)}

theorem operandFault?_of_sameLexeme (hKind : other.kind = token.kind)
    (hText : other.text = token.text) (hPlace : (token, other) ∈ places) :
    Option.Rel (Fault.Moved places) (token.operandFault? table) (other.operandFault? table) := by
  have atPlace : ∀ cause, Fault.Moved places ⟨cause, token.span.start⟩ ⟨cause, other.span.start⟩ :=
    fun cause => ⟨rfl, _, hPlace, rfl, rfl⟩
  rw [Token.operandFault?, Token.operandFault?, Token.isEnd_of_kind hKind,
    Token.isOperatorOf_of_sameLexeme hKind hText, Token.isTerminated_of_sameLexeme hKind hText,
    hKind, hText]
  split
  · exact .some (atPlace _)
  · split
    · exact .some (atPlace _)
    · exact .none

mutual

theorem faultAtOperand?_of_sameLexemes : (tokens others : List Token) →
    SameLexemes tokens others → tokens.zip others ⊆ places →
    Option.Rel (Fault.Moved places) (faultAtOperand? table tokens) (faultAtOperand? table others)
  | [], [], _, _ => .none
  | [token], [other], .cons hKind hText _ _, hPlaces =>
      operandFault?_of_sameLexeme hKind hText (hPlaces List.mem_cons_self)
  | token :: next :: rest, other :: otherNext :: otherRest, hSame, hPlaces => by
      have signs := hSame.isSignOf_eq
      have behindToken := List.Subset.trans (List.subset_cons_self _ _) hPlaces
      have behindNext := List.Subset.trans (List.subset_cons_self _ _) behindToken
      rcases hSame with _ | ⟨hKind, hText, _, hNext⟩
      have further := faultBehindOperand?_of_sameLexemes (next :: rest) (otherNext :: otherRest)
        hNext behindToken
      rcases hNext with _ | ⟨_, _, _, hRest⟩
      rw [faultAtOperand?, faultAtOperand?, signs]
      split
      · exact faultBehindOperand?_of_sameLexemes rest otherRest hRest behindNext
      · have here : Option.Rel (Fault.Moved places) (token.operandFault? table)
            (other.operandFault? table) :=
          operandFault?_of_sameLexeme hKind hText (hPlaces List.mem_cons_self)
        generalize token.operandFault? table = fault at here ⊢
        generalize other.operandFault? table = otherFault at here ⊢
        cases here with
        | some hFault => exact .some hFault
        | none => exact further

theorem faultBehindOperand?_of_sameLexemes : (tokens others : List Token) →
    SameLexemes tokens others → tokens.zip others ⊆ places →
    Option.Rel (Fault.Moved places) (faultBehindOperand? table tokens)
      (faultBehindOperand? table others)
  | [], [], _, _ => .none
  | token :: rest, other :: otherRest, .cons hKind hText _ hRest, hPlaces => by
      have behind := List.Subset.trans (List.subset_cons_self _ _) hPlaces
      rw [faultBehindOperand?, faultBehindOperand?, Token.isEnd_of_kind hKind,
        Token.isOperatorOf_of_sameLexeme hKind hText]
      split
      · exact .none
      · split
        · exact faultAtOperand?_of_sameLexemes rest otherRest hRest behind
        · exact .some ⟨congrArg Cause.trailingInput hText, _, hPlaces List.mem_cons_self, rfl, rfl⟩

end

/-- What gaps are made of does not matter, nor how long they are.  An expression consists of
gaps and of the texts of its tokens.  Put other gaps in their places, each empty exactly if the
one it replaces is, but as you like in front of the first token: the tokens keep their classes
and texts, an evaluation takes the same steps and gives the same value, and the check finds the
same fault, at the token in the same place. -/
theorem evaluation_depends_on_presence_of_gaps (table : PrecedenceTable) (source : String) :
    ∃ gaps, gapsOf? source.toList 0 (tokenize table source) = some gaps ∧
      source.toList = interleave gaps (tokenize table source) ∧
      ∀ others, Respaces gaps others →
        let rebuilt := String.ofList (interleave others (tokenize table source))
        gapsOf? rebuilt.toList 0 (tokenize table rebuilt) = some others ∧
          (tokenize table rebuilt).map (fun token => (token.kind, token.text)) =
            (tokenize table source).map (fun token => (token.kind, token.text)) ∧
          (∀ {V : Type} (interpretation : PureInterpretation V),
            (evaluate (interpretation.traced .everything) table rebuilt).run #[] =
                (evaluate (interpretation.traced .everything) table source).run #[] ∧
              Id.run (evaluate interpretation table rebuilt) =
                Id.run (evaluate interpretation table source)) ∧
          (∀ {m : Type → Type} [Monad m] [LawfulMonad m] {V : Type}
            (steps : Interpretation m V),
            evaluate steps table rebuilt = evaluate steps table source) ∧
          Option.Rel (Fault.Moved ((tokenize table source).zip (tokenize table rebuilt)))
            (shapeFault? table source) (shapeFault? table rebuilt) := by
  rcases (tokenize_partition table source).gaps with ⟨gaps, hGaps, _, hSource⟩
  refine ⟨gaps, hGaps, hSource, ?_⟩
  intro others hOthers rebuilt
  rcases sameLexemes_respaced hGaps hOthers String.toList_ofList with ⟨same, found⟩
  refine ⟨found, same.map_eq, ?_, fun steps => evaluate_of_sameLexemes steps same, ?_⟩
  · intro V interpretation
    constructor
    · rw [evaluate_of_sameLexemes (interpretation.traced .everything) same]
    · rw [evaluate_of_sameLexemes interpretation same]
  · exact faultAtOperand?_of_sameLexemes _ _ same (List.Subset.refl _)

/-- A sign, two operators in one run of symbols, and a quoted text that holds a gap of its own. -/
theorem evaluation_depends_on_presence_of_gaps_around_quoted :
    let table := PrecedenceTable.standard.enter "<-" 2
    let source := "-1 <-+2*\"a  b\" 3"
    let rebuilt := "\n-1\t\n<-+2*\"a  b\"  3"
    let gaps : List (List Char) := [[], [], [' '], [], [], [], [], [' '], []]
    let others : List (List Char) := [['\n'], [], ['\t', '\n'], [], [], [], [], [' ', ' '], []]
    gapsOf? source.toList 0 (tokenize table source) = some gaps ∧ Respaces gaps others ∧
      rebuilt = String.ofList (interleave others (tokenize table source)) ∧
      Id.run (evaluate Grouping.interpretation table rebuilt) =
        Id.run (evaluate Grouping.interpretation table source) ∧
      Option.Rel (Fault.Moved ((tokenize table source).zip (tokenize table rebuilt)))
        (some ⟨.trailingInput "3", 15⟩) (some ⟨.trailingInput "3", 18⟩) := by
  intro table source rebuilt gaps others
  have slices : gapsOf? source.toList 0 (tokenize table source) = some gaps := by
    decide +kernel
  have touching : Respaced [] [] := ⟨rfl, Iff.rfl⟩
  have respaces : Respaces gaps others :=
    .gaps rfl (.cons touching (.cons ⟨rfl, by decide⟩ (.cons touching (.cons touching
      (.cons touching (.cons touching (.cons ⟨rfl, by decide⟩ (.cons touching .nil))))))))
  have text : rebuilt = String.ofList (interleave others (tokenize table source)) := by
    decide +kernel
  rcases evaluation_depends_on_presence_of_gaps table source with ⟨found, hFound, _, result⟩
  obtain rfl : found = gaps := Option.some.inj (hFound.symm.trans slices)
  rcases result others respaces with ⟨_, _, evaluated, _, faults⟩
  have here : shapeFault? table source = some ⟨.trailingInput "3", 15⟩ := by
    decide +kernel
  have there : shapeFault? table rebuilt = some ⟨.trailingInput "3", 18⟩ := by
    decide +kernel
  rw [← text, here, there] at faults
  rw [← text] at evaluated
  exact ⟨slices, respaces, text, (evaluated Grouping.interpretation).2, faults⟩

end OperatorCalculator
