import OperatorCalculator.Proofs.Evaluation.Lookahead

/-
Operands with an operator between any two.

An alternation is what a list of tokens shows before any grouping.  This module says
which alternations can be read from the front of a list, with operators of a least
rank only.  Whatever can be read is a beginning of one longest alternation, which
ends in front of the first token that is no operator of that rank.
-/

set_option autoImplicit false

namespace OperatorCalculator

/-! ### Operands -/

inductive Operand where
  | single (token : Token)
  | signed (sign word : Token)
  deriving DecidableEq

def Operand.text : Operand → String
  | .single token => token.text
  | .signed sign word => sign.text ++ word.text

/-- A sign takes the word that belongs to it; any other token stands alone.  The end of
input is an operand too, and stays where it is. -/
inductive Operand.Reads : List Token → Operand → List Token → Prop
  | signed {sign word : Token} {rest : List Token} (hSign : sign.isSignOf word = true) :
      Reads (sign :: word :: rest) (.signed sign word) rest
  | single {token next : Token} {rest : List Token} (hToken : token.isEnd = false)
      (hSign : token.isSignOf next = false) :
      Reads (token :: next :: rest) (.single token) (next :: rest)
  | endOfInput {token : Token} (hEnd : token.isEnd = true) :
      Reads [token] (.single token) [token]

theorem Token.isEnd_eq_false_of_isSignOf {sign word : Token}
    (hSign : sign.isSignOf word = true) : sign.isEnd = false ∧ word.isEnd = false := by
  simp only [Token.isSignOf, Bool.and_eq_true, beq_iff_eq] at hSign
  obtain ⟨⟨⟨signKind, _⟩, wordKind⟩, _⟩ := hSign
  constructor
  · rw [Token.isEnd, signKind]
    rfl
  · rw [Token.isEnd, wordKind]
    rfl

theorem Token.start_eq_of_isSignOf {sign word : Token} (hSign : sign.isSignOf word = true) :
    word.span.start = sign.span.stop := by
  simp only [Token.isSignOf, Bool.and_eq_true, beq_iff_eq] at hSign
  exact hSign.2

theorem Operand.Reads.unique {tokens rest otherRest : List Token} {operand other : Operand}
    (hReads : Operand.Reads tokens operand rest)
    (hOther : Operand.Reads tokens other otherRest) :
    operand = other ∧ rest = otherRest := by
  cases hReads with
  | signed hSign =>
      cases hOther with
      | signed _ => exact ⟨rfl, rfl⟩
      | single _ hNoSign =>
          rw [hSign] at hNoSign
          contradiction
  | single hToken hNoSign =>
      cases hOther with
      | signed hSign =>
          rw [hSign] at hNoSign
          contradiction
      | single _ _ => exact ⟨rfl, rfl⟩
  | endOfInput hEnd =>
      cases hOther with
      | endOfInput _ => exact ⟨rfl, rfl⟩

theorem Cursor.operand_of_isSignOf {table : PrecedenceTable} {cursor : Cursor}
    (hSign : cursor.current.isSignOf (cursor.advance table).current = true) :
    cursor.operand table =
      (cursor.current.text ++ (cursor.advance table).current.text,
        ⟨(cursor.advance table).advance table,
          Nat.le_trans (pending_advance_le table _) (pending_advance_le table cursor)⟩) :=
  if_pos hSign

theorem Cursor.operand_of_not_isSignOf {table : PrecedenceTable} {cursor : Cursor}
    (hSign : cursor.current.isSignOf (cursor.advance table).current = false) :
    cursor.operand table =
      (cursor.current.text, ⟨cursor.advance table, pending_advance_le table cursor⟩) :=
  if_neg (by simp only [hSign, Bool.false_eq_true, not_false_eq_true])

/-- An operand is read by moving on once or twice. -/
theorem Cursor.holds_behind_operand {table : PrecedenceTable} {motive : Cursor → Prop}
    (hAdvance : ∀ cursor, motive cursor → motive (cursor.advance table)) {cursor : Cursor}
    (hNext : motive (cursor.advance table)) : motive (cursor.operand table).2.val := by
  cases hSign : cursor.current.isSignOf (cursor.advance table).current with
  | true =>
      rw [operand_of_isSignOf hSign]
      exact hAdvance _ hNext
  | false =>
      rw [operand_of_not_isSignOf hSign]
      exact hNext

theorem Operand.Reads.suffix {tokens rest : List Token} {operand : Operand}
    (hReads : Operand.Reads tokens operand rest) : rest <:+ tokens := by
  cases hReads with
  | signed _ => exact (List.suffix_cons _ _).trans (List.suffix_cons _ _)
  | single _ _ => exact List.suffix_cons _ _
  | endOfInput _ => exact List.suffix_rfl

theorem Cursor.reads_operand {table : PrecedenceTable} {cursor : Cursor}
    (hScanned : cursor.IsScanned table) :
    ∃ operand : Operand,
      Operand.Reads (cursor.upcoming table) operand
        ((cursor.operand table).2.val.upcoming table) ∧
      operand.text = (cursor.operand table).1 ∧
      (cursor.operand table).2.val.IsScanned table := by
  cases hSign : cursor.current.isSignOf (cursor.advance table).current with
  | true =>
      obtain ⟨signToken, wordToken⟩ := Token.isEnd_eq_false_of_isSignOf hSign
      rw [operand_of_isSignOf hSign]
      refine ⟨.signed cursor.current (cursor.advance table).current, ?_, rfl,
        isScanned_advance table _⟩
      rw [upcoming_eq_cons_advance signToken, upcoming_eq_cons_advance wordToken]
      exact .signed hSign
  | false =>
      rw [operand_of_not_isSignOf hSign]
      refine ⟨.single cursor.current, ?_, rfl, isScanned_advance table _⟩
      cases hEnd : cursor.current.isEnd with
      | true =>
          simp only [advance_of_isEnd hScanned hEnd, upcoming_of_isEnd hEnd]
          exact .endOfInput hEnd
      | false =>
          obtain ⟨behind, hBehind⟩ := upcoming_eq_cons table (cursor.advance table)
          rw [upcoming_eq_cons_advance hEnd, hBehind]
          exact .single hEnd hSign

/-! ### Operators and operands in turn -/

@[ext]
structure Alternation (Operator Operand : Type) where
  first : Operand
  others : List (Operator × Operand)
  deriving DecidableEq

namespace Alternation

def operands {Operator Operand : Type} (alternation : Alternation Operator Operand) :
    List Operand :=
  alternation.first :: alternation.others.map Prod.snd

def texts (alternation : Alternation Token Operand) : Alternation String String where
  first := alternation.first.text
  others := alternation.others.map fun (operator, operand) => (operator.text, operand.text)

def IsBeginningOf {Operator Operand : Type}
    (beginning whole : Alternation Operator Operand) : Prop :=
  beginning.first = whole.first ∧ beginning.others <+: whole.others

/-- Operators of rank `minimum` and above, each with the operand behind it, are read off
the front of a list. -/
inductive Continues (table : PrecedenceTable) (minimum : Nat) :
    List Token → List (Token × Operand) → List Token → Prop
  | done {tokens : List Token} : Continues table minimum tokens [] tokens
  | more {operator : Token} {level : Level} {operand : Operand}
      {tokens behind rest : List Token} {others : List (Token × Operand)}
      (hLevel : operator.level? table = some level) (hRank : minimum ≤ level.rank)
      (hOperand : Operand.Reads tokens operand behind)
      (hOthers : Continues table minimum behind others rest) :
      Continues table minimum (operator :: tokens) ((operator, operand) :: others) rest

/-- An operand and then operators of rank `minimum` and above with their operands are
read off the front of a list. -/
def Reads (table : PrecedenceTable) (minimum : Nat) (tokens : List Token)
    (alternation : Alternation Token Operand) (rest : List Token) : Prop :=
  ∃ behind, Operand.Reads tokens alternation.first behind ∧
    Continues table minimum behind alternation.others rest

/-- The list does not go on with an operator of rank `minimum` or above. -/
def StopsAt (table : PrecedenceTable) (minimum : Nat) (tokens : List Token) : Prop :=
  ∀ token, tokens.head? = some token → ∀ level, token.level? table = some level →
    level.rank < minimum

variable {table : PrecedenceTable} {minimum : Nat}

theorem stopsAt_of_isEnd {last : Token} (hEnd : last.isEnd = true) (rest : List Token) :
    StopsAt table minimum (last :: rest) := by
  intro token hToken level hLevel
  cases hToken
  rw [Token.isEnd_eq_false_of_level? hLevel] at hEnd
  contradiction

theorem Continues.append {tokens behind rest : List Token}
    {front back : List (Token × Operand)}
    (hFront : Continues table minimum tokens front behind)
    (hBack : Continues table minimum behind back rest) :
    Continues table minimum tokens (front ++ back) rest := by
  induction hFront with
  | done => exact hBack
  | more hLevel hRank hOperand _ ih => exact .more hLevel hRank hOperand (ih hBack)

theorem Continues.mono {least : Nat} (hLeast : least ≤ minimum) {tokens rest : List Token}
    {others : List (Token × Operand)} (hOthers : Continues table minimum tokens others rest) :
    Continues table least tokens others rest := by
  induction hOthers with
  | done => exact .done
  | more hLevel hRank hOperand _ ih =>
      exact .more hLevel (Nat.le_trans hLeast hRank) hOperand ih

theorem Continues.suffix {tokens rest : List Token} {others : List (Token × Operand)}
    (hOthers : Continues table minimum tokens others rest) : rest <:+ tokens := by
  induction hOthers with
  | done => exact List.suffix_rfl
  | more _ _ hOperand _ ih =>
      exact (ih.trans hOperand.suffix).trans (List.suffix_cons _ _)

theorem Continues.beginning {tokens rest otherRest : List Token}
    {others otherOthers : List (Token × Operand)}
    (hOthers : Continues table minimum tokens others rest)
    (hStops : StopsAt table minimum rest)
    (hOther : Continues table minimum tokens otherOthers otherRest) :
    otherOthers <+: others := by
  induction hOthers generalizing otherOthers with
  | done =>
      cases hOther with
      | done => exact List.prefix_rfl
      | more hLevel hRank _ _ =>
          have below := hStops _ rfl _ hLevel
          omega
  | more hLevel hRank hOperand _ ih =>
      cases hOther with
      | done => exact List.nil_prefix
      | more _ _ hOtherOperand hOtherRest =>
          obtain ⟨rfl, rfl⟩ := hOperand.unique hOtherOperand
          exact List.cons_prefix_cons.mpr ⟨rfl, ih hStops hOtherRest⟩

theorem Continues.unique {tokens rest otherRest : List Token}
    {others otherOthers : List (Token × Operand)}
    (hOthers : Continues table minimum tokens others rest)
    (hStops : StopsAt table minimum rest)
    (hOther : Continues table minimum tokens otherOthers otherRest)
    (hOtherStops : StopsAt table minimum otherRest) :
    others = otherOthers ∧ rest = otherRest := by
  induction hOthers generalizing otherOthers with
  | done =>
      cases hOther with
      | done => exact ⟨rfl, rfl⟩
      | more hLevel hRank _ _ =>
          have below := hStops _ rfl _ hLevel
          omega
  | more hLevel hRank hOperand _ ih =>
      cases hOther with
      | done =>
          have below := hOtherStops _ rfl _ hLevel
          omega
      | more _ _ hOtherOperand hOtherRest =>
          obtain ⟨rfl, rfl⟩ := hOperand.unique hOtherOperand
          obtain ⟨rfl, rfl⟩ := ih hStops hOtherRest
          exact ⟨rfl, rfl⟩

theorem Reads.suffix {tokens rest : List Token} {alternation : Alternation Token Operand}
    (hReads : Reads table minimum tokens alternation rest) : rest <:+ tokens := by
  obtain ⟨behind, hFirst, hOthers⟩ := hReads
  exact hOthers.suffix.trans hFirst.suffix

theorem Reads.beginning {tokens rest otherRest : List Token}
    {alternation other : Alternation Token Operand}
    (hReads : Reads table minimum tokens alternation rest)
    (hStops : StopsAt table minimum rest)
    (hOther : Reads table minimum tokens other otherRest) :
    other.IsBeginningOf alternation := by
  obtain ⟨behind, hFirst, hOthers⟩ := hReads
  obtain ⟨otherBehind, hOtherFirst, hOtherOthers⟩ := hOther
  obtain ⟨sameFirst, rfl⟩ := hFirst.unique hOtherFirst
  exact ⟨sameFirst.symm, hOthers.beginning hStops hOtherOthers⟩

theorem Reads.unique {tokens rest otherRest : List Token}
    {alternation other : Alternation Token Operand}
    (hReads : Reads table minimum tokens alternation rest)
    (hStops : StopsAt table minimum rest)
    (hOther : Reads table minimum tokens other otherRest)
    (hOtherStops : StopsAt table minimum otherRest) :
    alternation = other ∧ rest = otherRest := by
  obtain ⟨first, others⟩ := alternation
  obtain ⟨otherFirst, otherOthers⟩ := other
  obtain ⟨behind, hFirst, hOthers⟩ := hReads
  obtain ⟨otherBehind, hOtherFirst, hOtherOthers⟩ := hOther
  obtain ⟨sameFirst, rfl⟩ := hFirst.unique hOtherFirst
  obtain ⟨sameOthers, sameRest⟩ := hOthers.unique hStops hOtherOthers hOtherStops
  simp only at sameFirst sameOthers
  exact ⟨by rw [sameFirst, sameOthers], sameRest⟩

end Alternation
end OperatorCalculator
