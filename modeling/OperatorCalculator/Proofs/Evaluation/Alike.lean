import OperatorCalculator.Proofs.Evaluation.Shape
import OperatorCalculator.Proofs.Evaluation.Traced
import OperatorCalculator.Proofs.Token.Alike

/-
Evaluating with tables that are alike.

Tables that are alike in an expression cut it into the same tokens and find the same fault
in its shape.  An evaluation reads the same operands and operators with both, and the one
grouping that follows the first table follows the second one too.  So both evaluations take
the same steps, whatever the levels are: gaps between levels do not matter, nor whether an
operator stands on the highest level, behind which there is no tighter one to climb to.
-/

set_option autoImplicit false

namespace OperatorCalculator

open PrecedenceTable (AlikeIn Relevels)

variable {first second : PrecedenceTable} {characters : List Char}

/-! ### The fault of a shape -/

theorem Token.isOperatorOf_of_alike (hAlike : AlikeIn characters first second)
    {token : Token} (hText : token.isEnd = false → OccursIn characters token.text) :
    token.isOperatorOf first = token.isOperatorOf second := by
  rw [isOperatorOf, isOperatorOf]
  cases hEnd : token.isEnd with
  | true => rfl
  | false => rw [hAlike.contains token.text (hText hEnd)]

mutual

theorem faultAtOperand?_congr : (tokens : List Token) →
    (∀ token ∈ tokens, token.isOperatorOf first = token.isOperatorOf second) →
    faultAtOperand? first tokens = faultAtOperand? second tokens
  | [], _ => rfl
  | [token], same => by
      have atToken := same token List.mem_cons_self
      rw [faultAtOperand?, faultAtOperand?, Token.operandFault?, Token.operandFault?, atToken]
  | token :: next :: rest, same => by
      have atToken := same token List.mem_cons_self
      have behindToken := fun other member => same other (List.mem_cons_of_mem token member)
      have behindNext := fun other member => behindToken other (List.mem_cons_of_mem next member)
      rw [faultAtOperand?, faultAtOperand?, Token.operandFault?, Token.operandFault?, atToken,
        faultBehindOperand?_congr rest behindNext,
        faultBehindOperand?_congr (next :: rest) behindToken]

theorem faultBehindOperand?_congr : (tokens : List Token) →
    (∀ token ∈ tokens, token.isOperatorOf first = token.isOperatorOf second) →
    faultBehindOperand? first tokens = faultBehindOperand? second tokens
  | [], _ => rfl
  | token :: rest, same => by
      have atToken := same token List.mem_cons_self
      have behindToken := fun other member => same other (List.mem_cons_of_mem token member)
      rw [faultBehindOperand?, faultBehindOperand?, atToken,
        faultAtOperand?_congr rest behindToken]

end

theorem shapeFault?_of_alike {source : String}
    (hAlike : AlikeIn source.toList first second) :
    shapeFault? first source = shapeFault? second source := by
  have texts := textsOccurIn_tokenize first source
  rw [shapeFault?, shapeFault?, ← tokenize_of_alike hAlike]
  apply faultAtOperand?_congr
  intro token member
  exact Token.isOperatorOf_of_alike hAlike (texts token member)

/-! ### What is read -/

theorem Token.exists_level?_of_alike (hAlike : AlikeIn characters first second)
    {token : Token} (hText : token.isEnd = false → OccursIn characters token.text)
    {level : Level} (hLevel : token.level? first = some level) :
    ∃ newLevel, token.level? second = some newLevel := by
  have hToken := Token.isEnd_eq_false_of_level? hLevel
  rw [Token.level?, hToken] at hLevel ⊢
  exact hAlike.exists_level? (hText hToken) hLevel

namespace Alternation

variable {tokens rest : List Token}

theorem Continues.of_alike (hAlike : AlikeIn characters first second)
    {others : List (Token × Operand)} (hOthers : Continues first 1 tokens others rest)
    (hTexts : TextsOccurIn characters tokens) : Continues second 1 tokens others rest := by
  induction hOthers with
  | done => exact .done
  | more hLevel _ hOperand _ ih =>
      obtain ⟨newLevel, hNewLevel⟩ :=
        Token.exists_level?_of_alike hAlike (hTexts _ List.mem_cons_self) hLevel
      have behind := hTexts.suffix (hOperand.suffix.trans (List.suffix_cons _ _))
      exact .more hNewLevel newLevel.positive hOperand (ih behind)

theorem Reads.of_alike (hAlike : AlikeIn characters first second)
    {alternation : Alternation Token Operand} (hReads : Reads first 1 tokens alternation rest)
    (hTexts : TextsOccurIn characters tokens) : Reads second 1 tokens alternation rest := by
  obtain ⟨behind, hFirst, hOthers⟩ := hReads
  exact ⟨behind, hFirst, hOthers.of_alike hAlike (hTexts.suffix hFirst.suffix)⟩

theorem StopsAt.of_alike (hAlike : AlikeIn characters first second)
    (hStops : StopsAt first 1 tokens) (hTexts : TextsOccurIn characters tokens) :
    StopsAt second 1 tokens := by
  intro token hToken newLevel hNewLevel
  obtain ⟨level, hLevel⟩ := Token.exists_level?_of_alike hAlike.symm
    (hTexts token (List.mem_of_head? hToken)) hNewLevel
  have below := hStops token hToken level hLevel
  have positive := level.positive
  omega

theorem Continues.occursIn {minimum : Nat} {others : List (Token × Operand)}
    (hOthers : Continues first minimum tokens others rest)
    (hTexts : TextsOccurIn characters tokens) :
    ∀ item ∈ textsOf others, OccursIn characters item.1 := by
  induction hOthers with
  | done =>
      intro item member
      contradiction
  | more hLevel _ hOperand _ ih =>
      have behind := hTexts.suffix (hOperand.suffix.trans (List.suffix_cons _ _))
      intro item member
      rcases List.mem_cons.mp member with rfl | deeper
      · exact hTexts _ List.mem_cons_self (Token.isEnd_eq_false_of_level? hLevel)
      · exact ih behind item deeper

end Alternation

/-! ### How it is grouped -/

namespace Grouping

theorem forall_operators_application {P : String → Prop} {left right : Grouping}
    {operator : String} :
    (∀ item ∈ (Grouping.application left operator right).flatten.others, P item.1) ↔
      (∀ item ∈ left.flatten.others, P item.1) ∧ P operator ∧
        ∀ item ∈ right.flatten.others, P item.1 := by
  simp only [flatten, List.forall_mem_append, List.forall_mem_cons]

theorem BindsFrom.of_alike (hAlike : AlikeIn characters first second) {grouping : Grouping}
    {minimum newMinimum : Nat} (hBinds : grouping.BindsFrom first minimum)
    (hOperators : ∀ item ∈ grouping.flatten.others, OccursIn characters item.1)
    (hRanks : ∀ other, OccursIn characters other → ∀ level newLevel,
      first.level? other = some level → second.level? other = some newLevel →
      minimum ≤ level.rank → newMinimum ≤ newLevel.rank) :
    grouping.BindsFrom second newMinimum := by
  cases grouping with
  | operand text => trivial
  | application left operator right =>
      obtain ⟨_, atTop, _⟩ := forall_operators_application.mp hOperators
      obtain ⟨level, hLevel, hRank⟩ := hBinds
      obtain ⟨newLevel, hNewLevel⟩ := hAlike.exists_level? atTop hLevel
      exact ⟨newLevel, hNewLevel, hRanks operator atTop level newLevel hLevel hNewLevel hRank⟩

theorem Follows.of_alike (hAlike : AlikeIn characters first second) {grouping : Grouping}
    (hFollows : grouping.Follows first)
    (hOperators : ∀ item ∈ grouping.flatten.others, OccursIn characters item.1) :
    grouping.Follows second := by
  induction grouping with
  | operand text => trivial
  | application left operator right ihLeft ihRight =>
      obtain ⟨level, hLevel, leftFollows, leftBinds, rightFollows, rightBinds⟩ := hFollows
      obtain ⟨inLeft, atTop, inRight⟩ := forall_operators_application.mp hOperators
      obtain ⟨newLevel, hNewLevel⟩ := hAlike.exists_level? atTop hLevel
      refine ⟨newLevel, hNewLevel, ihLeft leftFollows inLeft, ?_, ihRight rightFollows inRight,
        ?_⟩
      · apply leftBinds.of_alike hAlike inLeft
        intro other hOther inner newInner hInner hNewInner hRank
        exact (hAlike.order operator other atTop hOther level inner newLevel newInner
          hLevel hInner hNewLevel hNewInner).mp hRank
      · apply rightBinds.of_alike hAlike inRight
        intro other hOther inner newInner hInner hNewInner hRank
        have order := hAlike.order other operator hOther atTop inner level newInner newLevel
          hInner hLevel hNewInner hNewLevel
        omega

end Grouping

theorem Cursor.grouping_start_of_alike {source : String}
    (hAlike : AlikeIn source.toList first second) :
    ((Cursor.start first source).grouping first 1).1 =
      ((Cursor.start second source).grouping second 1).1 := by
  have groups := groups_start first source
  have newGroups := groups_start second source
  obtain ⟨alternation, hReads, hFlatten⟩ := groups.reads
  obtain ⟨newAlternation, hNewReads, hNewFlatten⟩ := newGroups.reads
  have texts := textsOccurIn_tokenize first source
  rw [← tokenize_of_alike hAlike] at hNewReads
  -- What the first evaluation reads also stops there by the second table, so that the second
  -- one has no choice but to read the same.
  have reads := hReads.of_alike hAlike texts
  have stops := groups.stops.of_alike hAlike (texts.suffix hReads.suffix)
  obtain ⟨rfl, _⟩ := reads.unique stops hNewReads newGroups.stops
  have operators : ∀ item ∈ ((Cursor.start first source).grouping first 1).1.flatten.others,
      OccursIn source.toList item.1 := by
    obtain ⟨behind, hFirst, hOthers⟩ := hReads
    rw [hFlatten]
    exact hOthers.occursIn (texts.suffix hFirst.suffix)
  -- Both groupings flatten to that alternation, and both follow the second table.
  have follows := groups.follows.of_alike hAlike operators
  exact follows.unique newGroups.follows (hFlatten.trans hNewFlatten.symm)

theorem evaluate_of_alike {m : Type → Type} [Monad m] [LawfulMonad m] {V : Type}
    (interpretation : Interpretation m V) {source : String}
    (hAlike : AlikeIn source.toList first second) :
    evaluate interpretation first source = evaluate interpretation second source := by
  rw [evaluate_eq_fold, evaluate_eq_fold, Cursor.grouping_start_of_alike hAlike]

/-- Only the order of levels matters.  Tables with the same operators, whose levels rise
together, give the same tokens and the same fault, and an evaluation takes the same steps
with the same operands and gives the same value. -/
theorem evaluation_depends_on_order_of_levels {relevel : Level → Level}
    {first second : PrecedenceTable} (hRelevels : Relevels relevel first second)
    (source : String) :
    tokenize first source = tokenize second source ∧
      shapeFault? first source = shapeFault? second source ∧
      (∀ {V : Type} (interpretation : PureInterpretation V),
        (evaluate (interpretation.traced .everything) first source).run #[] =
            (evaluate (interpretation.traced .everything) second source).run #[] ∧
          Id.run (evaluate interpretation first source) =
            Id.run (evaluate interpretation second source)) ∧
      ∀ {m : Type → Type} [Monad m] [LawfulMonad m] {V : Type}
        (interpretation : Interpretation m V),
        evaluate interpretation first source = evaluate interpretation second source := by
  have alike := hRelevels.alikeIn source.toList
  refine ⟨tokenize_of_alike alike, shapeFault?_of_alike alike, ?_, ?_⟩
  · intro V interpretation
    constructor
    · rw [evaluate_of_alike (interpretation.traced .everything) alike]
    · rw [evaluate_of_alike interpretation alike]
  · intro m _ _ V interpretation
    exact evaluate_of_alike interpretation alike

/-- An operator on the highest level, which takes a single operand on its right, against one
with levels above it. -/
theorem evaluation_depends_on_order_of_levels_at_highest_level :
    let first := PrecedenceTable.ofList [("+", 7), ("^", 4294967295)]
    let second := PrecedenceTable.ofList [("+", 1), ("^", 2)]
    let relevel : Level → Level := fun level =>
      if level.rank = 7 then ⟨1, by decide, by decide⟩ else ⟨2, by decide, by decide⟩
    Relevels relevel first second ∧
      Id.run (evaluate Grouping.interpretation first "1 + -2 ^ 3 ^ 4") =
        Id.run (evaluate Grouping.interpretation second "1 + -2 ^ 3 ^ 4") ∧
      Id.run (evaluate Grouping.interpretation second "1 + -2 ^ 3 ^ 4") =
        .application (.operand "1") "+"
          (.application (.application (.operand "-2") "^" (.operand "3")) "^" (.operand "4")) := by
  intro first second relevel
  have levels : ∀ (low high : UInt32) (operator : String),
      (PrecedenceTable.ofList [("+", low), ("^", high)]).level? operator =
        if "^" = operator then Level.ofWord? high
        else if "+" = operator then Level.ofWord? low else none := by
    intro low high operator
    simp only [PrecedenceTable.ofList, PrecedenceTable.enterAll, List.foldl_cons,
      List.foldl_nil, PrecedenceTable.enter, PrecedenceTable.level?_assign,
      PrecedenceTable.level?_empty]
  have relevels : Relevels relevel first second := by
    constructor
    · intro operator
      rw [levels, levels]
      split
      · rfl
      · split
        · rfl
        · rfl
    · intro operator other low high hLow hHigh hLess
      rw [levels] at hLow hHigh
      have lowest : Level.ofWord? 7 = some ⟨7, by decide, by decide⟩ := rfl
      have highest : Level.ofWord? 4294967295 = some ⟨4294967295, by decide, by decide⟩ := rfl
      grind
  refine ⟨relevels, ?_, by decide +kernel⟩
  exact ((evaluation_depends_on_order_of_levels relevels "1 + -2 ^ 3 ^ 4").2.2.1
    Grouping.interpretation).2

end OperatorCalculator
