import OperatorCalculator.Evaluation.Strict
import OperatorCalculator.Proofs.Evaluation.Calls

/-
The check of a shape and the evaluation read the same expression.

The check walks through the whole list of tokens, the evaluation pulls one token at a
time and climbs.  Both take in the same operands.  An expression passes if all of
them are good and the end of input follows.  Otherwise the fault is that of the first
operand that is not good or, if all are, that of the token where evaluation stops.
-/

set_option autoImplicit false

namespace OperatorCalculator

/-! ### Operands that stand where an operand should -/

/-- A sign with its word is always good.  A single token must be neither the end of
input, nor an operator, nor a quoted text without its closing quote. -/
def Operand.IsGood (table : PrecedenceTable) : Operand → Prop
  | .signed _ _ => True
  | .single token =>
      token.isEnd = false ∧ table.contains token.text = false ∧
        (token.kind = .quoted → token.isTerminated = true)

def Operand.fault? (table : PrecedenceTable) : Operand → Option Fault
  | .signed _ _ => none
  | .single token => token.operandFault? table

theorem Token.isOperatorOf_eq (table : PrecedenceTable) (token : Token) :
    token.isOperatorOf table = (token.level? table).isSome := by
  rw [isOperatorOf, level?, PrecedenceTable.contains_eq_isSome]
  cases token.isEnd with
  | true => rfl
  | false => rfl

theorem Token.operandFault?_of_isEnd_or_contains {table : PrecedenceTable} {token : Token}
    (hToken : token.isEnd = true ∨ table.contains token.text = true) :
    token.operandFault? table = some ⟨.expectedOperand token.text, token.span.start⟩ := by
  apply if_pos
  rw [isOperatorOf]
  cases hEnd : token.isEnd with
  | true => rfl
  | false =>
      have known := hToken.resolve_left (by simp [hEnd])
      simp only [known, Bool.not_false, Bool.and_self, Bool.or_true]

theorem Token.operandFault?_of_open {table : PrecedenceTable} {token : Token}
    (hEnd : token.isEnd = false) (hContains : table.contains token.text = false) :
    token.operandFault? table =
      if token.kind = .quoted ∧ token.isTerminated = false then
        some ⟨.unterminatedString token.text, token.span.start⟩
      else none := by
  simp only [operandFault?, isOperatorOf, hEnd, hContains, Bool.and_false, Bool.or_self,
    Bool.false_eq_true, if_false, Bool.and_eq_true, beq_iff_eq, Bool.not_eq_true']

theorem Operand.fault?_eq_none_iff {table : PrecedenceTable} {operand : Operand} :
    operand.fault? table = none ↔ operand.IsGood table := by
  cases operand with
  | signed sign word => simp [fault?, IsGood]
  | single token =>
      rw [fault?, IsGood]
      by_cases hToken : token.isEnd = true ∨ table.contains token.text = true
      · rw [Token.operandFault?_of_isEnd_or_contains hToken]
        simp only [reduceCtorEq, false_iff]
        rintro ⟨hEnd, hContains, _⟩
        simp [hEnd, hContains] at hToken
      · simp only [not_or, Bool.not_eq_true] at hToken
        rw [Token.operandFault?_of_open hToken.1 hToken.2]
        simp [hToken]

/-- What is wrong with an operand that is not good. -/
inductive Operand.Refused (table : PrecedenceTable) : Operand → Fault → Prop
  | expected {token : Token}
      (hToken : token.isEnd = true ∨ table.contains token.text = true) :
      Refused table (.single token) ⟨.expectedOperand token.text, token.span.start⟩
  | unterminated {token : Token} (hEnd : token.isEnd = false)
      (hContains : table.contains token.text = false) (hKind : token.kind = .quoted)
      (hOpen : token.isTerminated = false) :
      Refused table (.single token) ⟨.unterminatedString token.text, token.span.start⟩

theorem Operand.refused_of_fault? {table : PrecedenceTable} {operand : Operand}
    {fault : Fault} (hFault : operand.fault? table = some fault) :
    operand.Refused table fault := by
  cases operand with
  | signed sign word => contradiction
  | single token =>
      rw [fault?] at hFault
      by_cases hToken : token.isEnd = true ∨ table.contains token.text = true
      · rw [Token.operandFault?_of_isEnd_or_contains hToken] at hFault
        obtain rfl := Option.some.inj hFault
        exact .expected hToken
      · simp only [not_or, Bool.not_eq_true] at hToken
        rw [Token.operandFault?_of_open hToken.1 hToken.2] at hFault
        split at hFault
        · rename_i hOpen
          obtain rfl := Option.some.inj hFault
          exact .unterminated hToken.1 hToken.2 hOpen.1 hOpen.2
        · contradiction

/-! ### The first fault of what was read -/

def faultOfRest? : List Token → Option Fault
  | [] => none
  | token :: _ =>
      if token.isEnd then none else some ⟨.trailingInput token.text, token.span.start⟩

variable {table : PrecedenceTable}

theorem faultAtOperand?_of_reads {tokens behind : List Token} {operand : Operand}
    (hReads : Operand.Reads tokens operand behind) :
    faultAtOperand? table tokens =
      (operand.fault? table).or (faultBehindOperand? table behind) := by
  cases hReads with
  | signed hSign =>
      rw [faultAtOperand?, if_pos hSign]
      rfl
  | @single token next rest hToken hSign =>
      rw [faultAtOperand?, if_neg (by simp [hSign]), Operand.fault?]
      cases token.operandFault? table with
      | none => rfl
      | some fault => rfl
  | @endOfInput token hEnd =>
      rw [faultAtOperand?, Operand.fault?,
        Token.operandFault?_of_isEnd_or_contains (Or.inl hEnd)]
      rfl

theorem Token.isOperatorOf_eq_false_of_stopsAt {token : Token} {rest : List Token}
    (hStops : Alternation.StopsAt table 1 (token :: rest)) :
    token.isOperatorOf table = false := by
  rw [Token.isOperatorOf_eq]
  cases hLevel : token.level? table with
  | none => rfl
  | some level =>
      have below := hStops token rfl level hLevel
      have positive := level.positive
      omega

theorem faultBehindOperand?_of_stopsAt {tokens : List Token}
    (hStops : Alternation.StopsAt table 1 tokens) :
    faultBehindOperand? table tokens = faultOfRest? tokens := by
  cases tokens with
  | nil => rfl
  | cons token rest =>
      simp only [faultBehindOperand?, faultOfRest?, Token.isOperatorOf_eq_false_of_stopsAt hStops,
        Bool.false_eq_true, if_false]

theorem faultBehindOperand?_eq_or {tokens rest : List Token}
    {others : List (Token × Operand)}
    (hOthers : Alternation.Continues table 1 tokens others rest) :
    faultBehindOperand? table tokens =
      ((others.map Prod.snd).findSome? (Operand.fault? table)).or
        (faultBehindOperand? table rest) := by
  induction hOthers with
  | done => rfl
  | @more operator level operand tokens behind rest others hLevel hRank hOperand _ ih =>
      have known : operator.isOperatorOf table = true := by
        rw [Token.isOperatorOf_eq, hLevel]
        rfl
      simp only [faultBehindOperand?, Token.isEnd_eq_false_of_level? hLevel, known,
        Bool.false_eq_true, if_false, if_true]
      rw [faultAtOperand?_of_reads hOperand, ih, List.map_cons, List.findSome?_cons]
      cases operand.fault? table with
      | none => rfl
      | some fault => rfl

theorem faultAtOperand?_eq_or {tokens rest : List Token}
    {alternation : Alternation Token Operand}
    (hReads : alternation.Reads table 1 tokens rest) :
    faultAtOperand? table tokens =
      (alternation.operands.findSome? (Operand.fault? table)).or
        (faultBehindOperand? table rest) := by
  obtain ⟨behind, hFirst, hOthers⟩ := hReads
  rw [faultAtOperand?_of_reads hFirst, faultBehindOperand?_eq_or hOthers,
    Alternation.operands, List.findSome?_cons]
  cases alternation.first.fault? table with
  | none => rfl
  | some fault => rfl

theorem faultAtOperand?_eq_findSome? {tokens rest : List Token}
    {alternation : Alternation Token Operand}
    (hReads : alternation.Reads table 1 tokens rest)
    (hStops : Alternation.StopsAt table 1 rest) :
    faultAtOperand? table tokens =
      (alternation.operands.findSome? (Operand.fault? table)).or (faultOfRest? rest) := by
  rw [faultAtOperand?_eq_or hReads, faultBehindOperand?_of_stopsAt hStops]

theorem findSome?_fault?_eq_none_iff {operands : List Operand} :
    operands.findSome? (Operand.fault? table) = none ↔
      ∀ operand ∈ operands, operand.IsGood table := by
  simp only [List.findSome?_eq_none_iff, Operand.fault?_eq_none_iff]

theorem findSome?_fault?_of_first {before after : List Operand} {culprit : Operand}
    (hBefore : ∀ operand ∈ before, operand.IsGood table)
    (hCulprit : ¬culprit.IsGood table) :
    ∃ fault, culprit.Refused table fault ∧
      (before ++ culprit :: after).findSome? (Operand.fault? table) = some fault := by
  cases hFault : culprit.fault? table with
  | none => exact absurd (Operand.fault?_eq_none_iff.mp hFault) hCulprit
  | some fault =>
      refine ⟨fault, Operand.refused_of_fault? hFault, ?_⟩
      rw [List.findSome?_append, findSome?_fault?_eq_none_iff.mpr hBefore, Option.none_or,
        List.findSome?_cons, hFault]

theorem findSome?_fault?_ne_trailingInput {operands : List Operand} {text : String}
    {position : Nat} :
    operands.findSome? (Operand.fault? table) ≠ some ⟨.trailingInput text, position⟩ := by
  intro hFault
  obtain ⟨operand, _, hOperand⟩ := List.exists_of_findSome?_eq_some hFault
  have refused := Operand.refused_of_fault? hOperand
  cases refused

/-! ### Check and evaluation -/

variable {V : Type} (interpretation : PureInterpretation V)

/-- The operands that an evaluation takes in up to where it stops, and what the check makes
of them. -/
theorem exists_alternation_upto_stop (table : PrecedenceTable) (source : String) :
    ∃ alternation : Alternation Token Operand,
      alternation.Reads table 1 (tokenize table source)
        ((Cursor.stop interpretation table source).upcoming table) ∧
      ((evaluate interpretation.logged table source).run #[]).2.toList.filterMap
        Call.literalText? = alternation.operands.map Operand.text ∧
      shapeFault? table source =
        (alternation.operands.findSome? (Operand.fault? table)).or
          (faultOfRest? ((Cursor.stop interpretation table source).upcoming table)) := by
  have groups := Cursor.groups_stop interpretation table source
  obtain ⟨alternation, hReads, hFlatten⟩ := groups.reads
  refine ⟨alternation, hReads, ?_, faultAtOperand?_eq_findSome? hReads groups.stops⟩
  rw [run_evaluate_logged]
  show (Grouping.ofSource table source).calls.filterMap _ = _
  rw [Grouping.filterMap_calls, hFlatten]
  simp [Alternation.operands, Alternation.texts]

theorem faultOfRest?_upcoming (table : PrecedenceTable) (cursor : Cursor) :
    faultOfRest? (cursor.upcoming table) =
      if cursor.current.isEnd then none
      else some ⟨.trailingInput cursor.current.text, cursor.current.span.start⟩ := by
  obtain ⟨behind, hBehind⟩ := Cursor.upcoming_eq_cons table cursor
  rw [hBehind, faultOfRest?]

theorem evaluateStrict_eq_ok_iff {interpretation : PureInterpretation V}
    {source : String} {value : V} :
    evaluateStrict interpretation table source = .ok value ↔
      shapeFault? table source = none ∧ evaluate interpretation table source = value := by
  rw [evaluateStrict]
  cases shapeFault? table source with
  | none =>
      simp only [Except.ok.injEq, true_and]
  | some fault => simp

/-- The check passes an expression exactly if the evaluation takes in good operands only and
stops at the end of input, and faults the first token that keeps it from doing so. -/
theorem shapeFault?_iff_operands_of_expression (table : PrecedenceTable) (source : String) :
    ∃ (alternation : Alternation Token Operand) (stop : Cursor),
      Cursor.stop interpretation table source = stop ∧
      alternation.Reads table 1 (tokenize table source) (stop.upcoming table) ∧
      ((evaluate interpretation.logged table source).run #[]).2.toList.filterMap
        Call.literalText? = alternation.operands.map Operand.text ∧
      (shapeFault? table source = none ↔
        (∀ operand ∈ alternation.operands, operand.IsGood table) ∧
          stop.current.isEnd = true) ∧
      (∀ text position,
        shapeFault? table source = some ⟨.trailingInput text, position⟩ ↔
          (∀ operand ∈ alternation.operands, operand.IsGood table) ∧
            stop.current.isEnd = false ∧ stop.current.text = text ∧
            stop.current.span.start = position) ∧
      (∀ before culprit after, alternation.operands = before ++ culprit :: after →
        (∀ operand ∈ before, operand.IsGood table) → ¬culprit.IsGood table →
          ∃ fault, culprit.Refused table fault ∧ shapeFault? table source = some fault) ∧
      (∀ value, evaluateStrict interpretation table source = .ok value →
        stop.current.isEnd = true ∧
          ∀ token, .single token ∈ alternation.operands →
            token.isEnd = false ∧ table.contains token.text = false ∧
              (token.kind = .quoted → token.isTerminated = true)) := by
  obtain ⟨alternation, hReads, hCalls, hFault⟩ :=
    exists_alternation_upto_stop interpretation table source
  rw [faultOfRest?_upcoming] at hFault
  have passes : shapeFault? table source = none ↔
      (∀ operand ∈ alternation.operands, operand.IsGood table) ∧
        (Cursor.stop interpretation table source).current.isEnd = true := by
    rw [hFault, Option.or_eq_none_iff, findSome?_fault?_eq_none_iff]
    simp
  refine ⟨alternation, _, rfl, hReads, hCalls, passes, ?_, ?_, ?_⟩
  · intro text position
    constructor
    · intro hTrailing
      rw [hTrailing] at hFault
      rcases Option.or_eq_some_iff.mp hFault.symm with atOperand | ⟨noFault, atStop⟩
      · exact absurd atOperand findSome?_fault?_ne_trailingInput
      · split at atStop
        · contradiction
        · rename_i hToken
          simp only [Option.some.injEq, Fault.mk.injEq, Cause.trailingInput.injEq] at atStop
          exact ⟨findSome?_fault?_eq_none_iff.mp noFault, by simpa using hToken, atStop⟩
    · rintro ⟨good, hToken, rfl, rfl⟩
      rw [hFault, findSome?_fault?_eq_none_iff.mpr good, Option.none_or]
      simp [hToken]
  · intro before culprit after hOperands hBefore hCulprit
    obtain ⟨fault, refused, hFirst⟩ := findSome?_fault?_of_first hBefore hCulprit
    refine ⟨fault, refused, ?_⟩
    rw [hFault, hOperands, hFirst, Option.some_or]
  · intro value hOk
    obtain ⟨good, hEnd⟩ := passes.mp (evaluateStrict_eq_ok_iff.mp hOk).1
    exact ⟨hEnd, fun token member => good _ member⟩

end OperatorCalculator
