import OperatorCalculator.CommandLine
import OperatorCalculator.Proofs.Evaluation.Shape

/-
The grammar of well-formed expressions.

A list of tokens is well formed if it can be split into operands, with an operator between
any two, and the end of input.  The check of a shape reads a list once and joins a sign with
its word wherever it can.  It misses no other split, as long as plus and minus are operators:
then a sign cannot stand alone as an operand, so there is one split at most.  A list that
cannot be split is faulted at a token that could have been another one: those before it
begin a list that can be split.
-/

set_option autoImplicit false

namespace OperatorCalculator

/-! ### The grammar -/

def Operand.tokens : Operand → List Token
  | .single token => [token]
  | .signed sign word => [sign, word]

inductive Operand.IsProper (table : PrecedenceTable) : Operand → Prop
  | single {token : Token} (hToken : token.isEnd = false)
      (hContains : table.contains token.text = false)
      (hClosed : token.kind = .quoted → token.isTerminated = true) :
      IsProper table (.single token)
  | signed {sign word : Token} (hSign : sign.isSignOf word = true) :
      IsProper table (.signed sign word)

namespace Alternation

def tokensOf (others : List (Token × Operand)) : List Token :=
  others.flatMap fun (operator, operand) => operator :: operand.tokens

def tokens (alternation : Alternation Token Operand) : List Token :=
  alternation.first.tokens ++ tokensOf alternation.others

structure IsProper (table : PrecedenceTable) (alternation : Alternation Token Operand) :
    Prop where
  operands : ∀ operand ∈ alternation.operands, operand.IsProper table
  operators : ∀ item ∈ alternation.others, item.1.isOperatorOf table = true

/-- The list consists of the tokens of an alternation and of the end of input. -/
def Splits (table : PrecedenceTable) (whole : List Token)
    (alternation : Alternation Token Operand) : Prop :=
  alternation.IsProper table ∧
    ∃ last : Token, last.isEnd = true ∧ whole = alternation.tokens ++ [last]

/-- Tokens behind which an operand has to follow. -/
inductive Owes (table : PrecedenceTable) : List Token → Prop
  | nothing : Owes table []
  | operator {complete : Alternation Token Operand} {operator : Token}
      (hComplete : complete.IsProper table) (hOperator : operator.isOperatorOf table = true) :
      Owes table (complete.tokens ++ [operator])

/-- A token is out of place behind those before it, for some cause. -/
inductive Blocks (table : PrecedenceTable) : List Token → Token → Cause → Prop
  | trailing {complete : Alternation Token Operand} {token : Token}
      (hComplete : complete.IsProper table) (hToken : token.isEnd = false)
      (hContains : table.contains token.text = false) :
      Blocks table complete.tokens token (.trailingInput token.text)
  | expected {before : List Token} {token : Token} (hOwes : Owes table before)
      (hToken : token.isEnd = true ∨ table.contains token.text = true) :
      Blocks table before token (.expectedOperand token.text)
  | unterminated {before : List Token} {token : Token} (hOwes : Owes table before)
      (hContains : table.contains token.text = false) (hKind : token.kind = .quoted)
      (hOpen : token.isTerminated = false) :
      Blocks table before token (.unterminatedString token.text)

end Alternation

variable {table : PrecedenceTable}

/-! ### Splitting what is read -/

theorem Operand.IsProper.isGood {operand : Operand} (hProper : operand.IsProper table) :
    operand.IsGood table := by
  cases hProper with
  | single hToken hContains hClosed => exact ⟨hToken, hContains, hClosed⟩
  | signed hSign => trivial

theorem Operand.Reads.isProper {tokens rest : List Token} {operand : Operand}
    (hReads : Operand.Reads tokens operand rest) (hGood : operand.IsGood table) :
    operand.IsProper table ∧ tokens = operand.tokens ++ rest := by
  cases hReads with
  | signed hSign => exact ⟨.signed hSign, rfl⟩
  | single hToken _ => exact ⟨.single hToken hGood.2.1 hGood.2.2, rfl⟩
  | endOfInput hEnd =>
      rw [hGood.1] at hEnd
      contradiction

namespace Alternation

variable {tokens rest : List Token} {front back others : List (Token × Operand)}

theorem Continues.split (hOthers : Continues table 1 tokens (front ++ back) rest)
    (hGood : ∀ item ∈ front, item.2.IsGood table) :
    ∃ behind, tokens = tokensOf front ++ behind ∧ Continues table 1 behind back rest ∧
      ∀ item ∈ front, item.1.isOperatorOf table = true ∧ item.2.IsProper table := by
  induction front generalizing tokens with
  | nil => exact ⟨tokens, rfl, hOthers, by simp⟩
  | cons item front ih =>
      cases hOthers with
      | @more operator level operand _ behindOperand _ _ hLevel _ hOperand hBehind =>
          have proper := hOperand.isProper (hGood _ List.mem_cons_self)
          rcases ih hBehind (fun other member => hGood other (List.mem_cons_of_mem _ member)) with
            ⟨behind, rfl, hBack, hItems⟩
          refine ⟨behind, ?_, hBack, ?_⟩
          · rw [proper.2]
            simp [tokensOf]
          · intro other member
            rcases List.mem_cons.mp member with rfl | deeper
            · rw [Token.isOperatorOf_eq, hLevel]
              exact ⟨rfl, proper.1⟩
            · exact hItems other deeper

theorem Reads.split {first : Operand}
    (hReads : Reads table 1 tokens ⟨first, front ++ back⟩ rest) (hFirst : first.IsGood table)
    (hGood : ∀ item ∈ front, item.2.IsGood table) :
    ∃ behind, tokens = (Alternation.mk first front).tokens ++ behind ∧
      Continues table 1 behind back rest ∧ (Alternation.mk first front).IsProper table := by
  rcases hReads with ⟨behindFirst, hOperand, hOthers⟩
  have proper := hOperand.isProper hFirst
  rcases hOthers.split hGood with ⟨behind, hBehind, hBack, hItems⟩
  refine ⟨behind, ?_, hBack, ?_, fun item member => (hItems item member).1⟩
  · rw [proper.2, hBehind, Alternation.tokens, List.append_assoc]
  · intro operand member
    rcases List.mem_cons.mp member with rfl | deeper
    · exact proper.1
    · rcases List.mem_map.mp deeper with ⟨item, hItem, rfl⟩
      exact (hItems item hItem).2

theorem Reads.proper {alternation : Alternation Token Operand}
    (hReads : alternation.Reads table 1 tokens rest)
    (hGood : ∀ operand ∈ alternation.operands, operand.IsGood table) :
    alternation.IsProper table ∧ tokens = alternation.tokens ++ rest := by
  rcases alternation with ⟨first, items⟩
  rw [← List.append_nil items] at hReads
  have firstGood := hGood first List.mem_cons_self
  have itemsGood : ∀ item ∈ items, item.2.IsGood table := fun item member =>
    hGood item.2 (List.mem_cons_of_mem _ (List.mem_map_of_mem member))
  rcases hReads.split firstGood itemsGood with ⟨behind, hTokens, hBehind, proper⟩
  cases hBehind
  exact ⟨proper, hTokens⟩

/-! ### Reading what is split -/

end Alternation

structure PrecedenceTable.KnowsSigns (table : PrecedenceTable) : Prop where
  plus : table.contains "+" = true
  minus : table.contains "-" = true

theorem PrecedenceTable.KnowsSigns.contains (hSigns : table.KnowsSigns) {sign word : Token}
    (hSign : sign.isSignOf word = true) : table.contains sign.text = true := by
  simp only [Token.isSignOf, Bool.and_eq_true, Bool.or_eq_true, beq_iff_eq] at hSign
  rcases hSign.1.1.2 with minus | plus
  · rw [minus, hSigns.minus]
  · rw [plus, hSigns.plus]

theorem Operand.IsProper.reads (hSigns : table.KnowsSigns) {operand : Operand}
    (hProper : operand.IsProper table) {behind : List Token} (hSome : behind ≠ []) :
    Operand.Reads (operand.tokens ++ behind) operand behind := by
  cases hProper with
  | signed hSign => exact .signed hSign
  | @single token hToken hContains hClosed =>
      cases behind with
      | nil => contradiction
      | cons next rest =>
          apply Operand.Reads.single hToken
          cases hSign : token.isSignOf next with
          | false => rfl
          | true =>
              -- A sign that could be joined is an operator, so it was no operand on its own.
              rw [hSigns.contains hSign] at hContains
              contradiction

namespace Alternation

theorem continues_tokensOf (hSigns : table.KnowsSigns) {others : List (Token × Operand)}
    (hOperands : ∀ item ∈ others, item.2.IsProper table)
    (hOperators : ∀ item ∈ others, item.1.isOperatorOf table = true) (last : Token) :
    Continues table 1 (tokensOf others ++ [last]) others [last] := by
  induction others with
  | nil => exact .done
  | cons item others ih =>
      have rest := ih (fun other member => hOperands other (List.mem_cons_of_mem _ member))
        (fun other member => hOperators other (List.mem_cons_of_mem _ member))
      have known := hOperators item List.mem_cons_self
      rw [Token.isOperatorOf_eq, Option.isSome_iff_exists] at known
      rcases known with ⟨level, hLevel⟩
      have operand := (hOperands item List.mem_cons_self).reads hSigns
        (List.append_ne_nil_of_right_ne_nil (tokensOf others) (List.cons_ne_nil last []))
      rw [← List.append_assoc] at operand
      exact .more hLevel level.positive operand rest

theorem Splits.reads (hSigns : table.KnowsSigns) {whole : List Token}
    {alternation : Alternation Token Operand} (hSplits : alternation.Splits table whole) :
    ∃ last, StopsAt table 1 [last] ∧ faultOfRest? [last] = none ∧
      alternation.Reads table 1 whole [last] := by
  rcases hSplits with ⟨hProper, last, hEnd, rfl⟩
  have first := hProper.operands alternation.first List.mem_cons_self
  have others : ∀ item ∈ alternation.others, item.2.IsProper table := fun item member =>
    hProper.operands item.2 (List.mem_cons_of_mem _ (List.mem_map_of_mem member))
  refine ⟨last, stopsAt_of_isEnd hEnd [], if_pos hEnd, _, ?_,
    continues_tokensOf hSigns others hProper.operators last⟩
  rw [tokens, List.append_assoc]
  exact first.reads hSigns
    (List.append_ne_nil_of_right_ne_nil (tokensOf alternation.others) (List.cons_ne_nil last []))

theorem Splits.unique (hSigns : table.KnowsSigns) {whole : List Token}
    {alternation other : Alternation Token Operand} (hSplits : alternation.Splits table whole)
    (hOther : other.Splits table whole) : alternation = other := by
  rcases hSplits.reads hSigns with ⟨last, hStops, _, hReads⟩
  rcases hOther.reads hSigns with ⟨otherLast, hOtherStops, _, hOtherReads⟩
  exact (hReads.unique hStops hOtherReads hOtherStops).1

theorem Splits.faultAtOperand? (hSigns : table.KnowsSigns) {whole : List Token}
    {alternation : Alternation Token Operand} (hSplits : alternation.Splits table whole) :
    faultAtOperand? table whole = none := by
  rcases hSplits.reads hSigns with ⟨last, hStops, noFault, hReads⟩
  have good : ∀ operand ∈ alternation.operands, operand.IsGood table :=
    fun operand member => (hSplits.1.operands operand member).isGood
  rw [faultAtOperand?_eq_findSome? hReads hStops, findSome?_fault?_eq_none_iff.mpr good,
    Option.none_or, noFault]

/-! ### What goes on -/

/-- A sign with its word, which is proper whatever the table says. -/
def negation : Operand :=
  .signed ⟨.operator, "-", ⟨0, 1⟩⟩ ⟨.word, "x", ⟨1, 2⟩⟩

theorem isProper_negation (table : PrecedenceTable) : negation.IsProper table :=
  .signed (by decide)

/-- The tokens begin a list that can be split, and it goes on behind them. -/
def Begins (table : PrecedenceTable) (before : List Token) : Prop :=
  ∃ whole alternation, Splits table whole alternation ∧ before <+: whole ∧ before ≠ whole

theorem IsProper.begins {alternation : Alternation Token Operand}
    (hProper : alternation.IsProper table) {before behind : List Token}
    (hTokens : alternation.tokens = before ++ behind) : Begins table before := by
  refine ⟨alternation.tokens ++ [Token.endAt 0], alternation, ⟨hProper, _, rfl, rfl⟩, ?_, ?_⟩
  · rw [hTokens, List.append_assoc]
    exact List.prefix_append _ _
  · intro same
    have lengths := congrArg List.length same
    simp only [hTokens, List.length_append, List.length_singleton] at lengths
    omega

theorem IsProper.concat {alternation : Alternation Token Operand} {operator : Token}
    {operand : Operand} (hProper : alternation.IsProper table)
    (hOperator : operator.isOperatorOf table = true) (hOperand : operand.IsProper table) :
    IsProper table ⟨alternation.first, alternation.others ++ [(operator, operand)]⟩ := by
  constructor
  · intro other member
    simp only [Alternation.operands, List.map_append, List.map_cons, List.map_nil,
      ← List.cons_append, List.mem_append, List.mem_singleton] at member
    rcases member with inside | rfl
    · exact hProper.operands other inside
    · exact hOperand
  · intro item member
    rcases List.mem_append.mp member with inside | atEnd
    · exact hProper.operators item inside
    · rw [List.mem_singleton.mp atEnd]
      exact hOperator

theorem Owes.begins {before : List Token} (hOwes : Owes table before) :
    Begins table before := by
  cases hOwes with
  | nothing =>
      have proper : IsProper table ⟨negation, []⟩ := by
        constructor
        · intro operand member
          rw [List.mem_singleton.mp member]
          exact isProper_negation table
        · intro item member
          contradiction
      exact proper.begins (List.nil_append _).symm
  | @operator complete operator hComplete hOperator =>
      have proper := hComplete.concat hOperator (isProper_negation table)
      have read : tokens ⟨complete.first, complete.others ++ [(operator, negation)]⟩ =
          complete.tokens ++ [operator] ++ negation.tokens := by
        simp [tokens, tokensOf]
      exact proper.begins read

theorem Blocks.begins {before : List Token} {token : Token} {cause : Cause}
    (hBlocks : Blocks table before token cause) : Begins table before := by
  cases hBlocks with
  | trailing hComplete hToken hContains =>
      exact hComplete.begins (List.append_nil _).symm
  | expected hOwes hToken => exact hOwes.begins
  | unterminated hOwes hContains hKind hOpen => exact hOwes.begins

/-! ### What is faulted -/

def FaultedAt (table : PrecedenceTable) (whole : List Token) (fault : Fault) : Prop :=
  ∃ before token after, whole = before ++ token :: after ∧
    fault.position = token.span.start ∧ Blocks table before token fault.cause

theorem faultedAt_of_reads_operand {before behind rest : List Token} {culprit : Operand}
    {fault : Fault} (hOwes : Owes table before) (hReads : Operand.Reads behind culprit rest)
    (hFault : culprit.fault? table = some fault) : FaultedAt table (before ++ behind) fault := by
  have refused := Operand.refused_of_fault? hFault
  cases culprit with
  | signed sign word => contradiction
  | single token =>
      have inFront : ∃ after, behind = token :: after := by
        cases hReads with
        | single _ _ => exact ⟨_, rfl⟩
        | endOfInput _ => exact ⟨_, rfl⟩
      rcases inFront with ⟨after, rfl⟩
      refine ⟨before, token, after, rfl, ?_⟩
      cases refused with
      | expected hToken => exact ⟨rfl, .expected hOwes hToken⟩
      | unterminated _ hContains hKind hOpen =>
          exact ⟨rfl, .unterminated hOwes hContains hKind hOpen⟩

theorem Reads.faultedAt_of_operands {whole rest : List Token}
    {alternation : Alternation Token Operand} {fault : Fault}
    (hReads : alternation.Reads table 1 whole rest)
    (hFault : alternation.operands.findSome? (Operand.fault? table) = some fault) :
    FaultedAt table whole fault := by
  rcases List.findSome?_eq_some_iff.mp hFault with
    ⟨good, culprit, others, hOperands, hCulprit, hGood⟩
  rcases alternation with ⟨first, items⟩
  cases good with
  | nil =>
      cases hOperands
      rcases hReads with ⟨behind, hFirst, _⟩
      exact faultedAt_of_reads_operand .nothing hFirst hCulprit
  | cons goodFirst good =>
      rcases List.cons.inj hOperands with ⟨rfl, hItems⟩
      rcases List.map_eq_append_iff.mp hItems with ⟨front, back, rfl, hFront, hBack⟩
      rcases List.map_eq_cons_iff.mp hBack with ⟨⟨operator, operand⟩, back, rfl, rfl, _⟩
      have firstGood := Operand.fault?_eq_none_iff.mp (hGood first List.mem_cons_self)
      have frontGood : ∀ item ∈ front, item.2.IsGood table := by
        intro item member
        apply Operand.fault?_eq_none_iff.mp
        apply hGood
        rw [← hFront]
        exact List.mem_cons_of_mem _ (List.mem_map_of_mem member)
      -- What is good makes an alternation, and the operator behind it owes an operand.
      rcases hReads.split firstGood frontGood with ⟨behind, rfl, hBehind, proper⟩
      cases hBehind with
      | more hLevel _ hOperand _ =>
          have known : operator.isOperatorOf table = true := by
            rw [Token.isOperatorOf_eq, hLevel]
            rfl
          have faulted := faultedAt_of_reads_operand (.operator proper known) hOperand hCulprit
          rwa [List.append_assoc] at faulted

theorem Reads.faultedAt_of_rest {whole rest : List Token}
    {alternation : Alternation Token Operand} {fault : Fault}
    (hReads : alternation.Reads table 1 whole rest) (hStops : StopsAt table 1 rest)
    (hGood : ∀ operand ∈ alternation.operands, operand.IsGood table)
    (hFault : faultOfRest? rest = some fault) : FaultedAt table whole fault := by
  rcases hReads.proper hGood with ⟨proper, rfl⟩
  cases rest with
  | nil => contradiction
  | cons token after =>
      cases hEnd : token.isEnd with
      | true =>
          rw [faultOfRest?, if_pos hEnd] at hFault
          contradiction
      | false =>
          rw [faultOfRest?, hEnd] at hFault
          cases hFault
          refine ⟨_, token, after, rfl, rfl, .trailing proper hEnd ?_⟩
          cases hLevel : token.level? table with
          | some level =>
              have below := hStops token rfl level hLevel
              have positive := level.positive
              omega
          | none =>
              rw [Token.level?, hEnd] at hLevel
              rw [PrecedenceTable.contains_eq_isSome]
              exact Option.isSome_eq_false_iff.mpr (Option.isNone_iff_eq_none.mpr hLevel)

end Alternation

/-- The check reads up to where an evaluation stops.  Its fault is that of the first operand
that is not good, or else that of what is left. -/
theorem faultedAt_of_shapeFault? {source : String} {fault : Fault}
    (hFault : shapeFault? table source = some fault) :
    Alternation.FaultedAt table (tokenize table source) fault := by
  have groups := Cursor.groups_start table source
  rcases groups.reads with ⟨alternation, hReads, _⟩
  rw [shapeFault?, faultAtOperand?_eq_findSome? hReads groups.stops] at hFault
  rcases Option.or_eq_some_iff.mp hFault with atOperand | ⟨noFault, atRest⟩
  · exact hReads.faultedAt_of_operands atOperand
  · exact hReads.faultedAt_of_rest groups.stops (findSome?_fault?_eq_none_iff.mp noFault) atRest

/-! ### Tables of the command line -/

theorem PrecedenceTable.KnowsSigns.assign (hSigns : table.KnowsSigns) (operator : String)
    (level : Level) : (table.assign operator (some level)).KnowsSigns := by
  have keeps : ∀ name, table.contains name = true →
      (table.assign operator (some level)).contains name = true := by
    intro name known
    rw [contains_eq_isSome] at known ⊢
    rw [level?_assign]
    split
    · rfl
    · exact known
  exact ⟨keeps "+" hSigns.plus, keeps "-" hSigns.minus⟩

theorem PrecedenceTable.knowsSigns_standard : standard.KnowsSigns :=
  ⟨by decide +kernel, by decide +kernel⟩

namespace CommandLine

theorem Choices.knowsSigns_settings (choices : Choices) :
    choices.settings.table.KnowsSigns := by
  simp only [settings]
  have start := PrecedenceTable.knowsSigns_standard
  -- Entries add operators and move them, but they take none out.
  generalize PrecedenceTable.standard = table at start
  induction choices.levels generalizing table with
  | nil => exact start
  | cons entry entries ih => exact ih _ (start.assign entry.1 entry.2)

def Request.settings : Request → Settings
  | .evaluate settings _ => settings
  | .converse settings => settings

theorem knowsSigns_of_request {arguments : List String} {request : Request}
    (hRequest : CommandLine.request arguments = .ok request) :
    request.settings.table.KnowsSigns := by
  rw [CommandLine.request] at hRequest
  cases hTaken : ({} : Choices).takeArguments arguments with
  | error stop =>
      rw [hTaken] at hRequest
      contradiction
  | ok choices =>
      rw [hTaken] at hRequest
      change (if choices.expressions.isEmpty then Except.ok (Request.converse choices.settings)
        else .ok (.evaluate choices.settings choices.expressions)) = .ok request at hRequest
      split at hRequest
      · cases hRequest
        exact choices.knowsSigns_settings
      · cases hRequest
        exact choices.knowsSigns_settings

end CommandLine

/-! ### The check and the grammar -/

/-- With plus and minus among the operators, as in every table that arguments lead to, the
check passes exactly the lists that can be split, and there is one way to split them.  The
fault of any other tells of a token that is out of place, behind the beginning of a list that
can be split. -/
theorem shapeFault?_eq_none_iff_splits (hSigns : table.KnowsSigns) (source : String) :
    (shapeFault? table source = none ↔
        ∃ alternation, Alternation.Splits table (tokenize table source) alternation) ∧
      (∀ alternation other, Alternation.Splits table (tokenize table source) alternation →
        Alternation.Splits table (tokenize table source) other → alternation = other) ∧
      (∀ fault, shapeFault? table source = some fault →
        ∃ before token after, tokenize table source = before ++ token :: after ∧
          fault.position = token.span.start ∧
          Alternation.Blocks table before token fault.cause ∧
          Alternation.Begins table before) ∧
      (∀ arguments request, CommandLine.request arguments = .ok request →
        request.settings.table.KnowsSigns) := by
  have groups := Cursor.groups_stop Grouping.interpretation table source
  generalize Cursor.stop Grouping.interpretation table source = behind at groups
  rcases groups.reads with ⟨alternation, hReads, _⟩
  have checked : shapeFault? table source =
      (alternation.operands.findSome? (Operand.fault? table)).or
        (faultOfRest? (behind.upcoming table)) :=
    faultAtOperand?_eq_findSome? hReads groups.stops
  refine ⟨⟨?_, ?_⟩, fun _ _ => Alternation.Splits.unique hSigns, ?_,
    fun _ _ => CommandLine.knowsSigns_of_request⟩
  · intro passes
    rw [checked, Option.or_eq_none_iff, findSome?_fault?_eq_none_iff,
      faultOfRest?_upcoming] at passes
    rcases passes with ⟨good, atEnd⟩
    have hEnd : behind.current.isEnd = true := by
      simpa using atEnd
    rw [Cursor.upcoming_of_isEnd hEnd] at hReads
    rcases hReads.proper good with ⟨proper, whole⟩
    exact ⟨alternation, proper, behind.current, hEnd, whole⟩
  · rintro ⟨split, hSplits⟩
    exact hSplits.faultAtOperand? hSigns
  · intro fault hFault
    rcases faultedAt_of_shapeFault? hFault with ⟨before, token, after, whole, position, blocks⟩
    exact ⟨before, token, after, whole, position, blocks, blocks.begins⟩

/-- A sign makes an operand of a word that is an operator elsewhere, but not of a text that is
left open. -/
theorem splits_of_operator_word_behind_sign :
    let table := PrecedenceTable.standard.enter "x" 3
    table.KnowsSigns ∧
      (∃ alternation,
        Alternation.Splits table (tokenize table "1 - -x x 2") alternation) ∧
      ∃ before token after, tokenize table "1 x -\"x" = before ++ token :: after ∧
        token.span.start = 4 ∧
        Alternation.Blocks table before token (.expectedOperand "-") ∧
        Alternation.Begins table before := by
  intro table
  have hSigns : table.KnowsSigns := ⟨by decide +kernel, by decide +kernel⟩
  refine ⟨hSigns, ?_, ?_⟩
  · exact (shapeFault?_eq_none_iff_splits hSigns "1 - -x x 2").1.mp (by decide +kernel)
  · rcases (shapeFault?_eq_none_iff_splits hSigns "1 x -\"x").2.2.1 ⟨.expectedOperand "-", 4⟩
      (by decide +kernel) with ⟨before, token, after, whole, position, blocks, begins⟩
    exact ⟨before, token, after, whole, position.symm, blocks, begins⟩

end OperatorCalculator
