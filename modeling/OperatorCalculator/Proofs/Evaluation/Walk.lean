import OperatorCalculator.Evaluation.Walk
import OperatorCalculator.Proofs.Evaluation.Expression
import OperatorCalculator.Proofs.Token.Feed

/-
Where the steps of a cursor lead.

A cursor always stands on one of the tokens of its expression, with its scanner where that
token stops.  Moving on leads to the next token, and nothing leads beyond the end of input.  An
expression is read by moving on, at least once, so it leads forward wherever it starts: also on
an operator, or on a sign that takes two tokens at once.
-/

set_option autoImplicit false

namespace OperatorCalculator
namespace Cursor

open Text (slice?)

/-! ### The place of a cursor -/

/-- The cursor looks at a token of the expression, and its scanner is where that token stops,
with the rest of the expression in front of it. -/
structure IsAt (table : PrecedenceTable) (source : String) (place : Nat) (cursor : Cursor) :
    Prop where
  inView : (tokenize table source)[place]? = some cursor.current
  offset : cursor.scanner.offset = cursor.current.span.stop
  remaining : slice? source.toList cursor.current.span.stop source.utf8ByteSize =
    some cursor.scanner.remaining

variable {table : PrecedenceTable} {source : String} {place : Nat} {cursor : Cursor}

theorem IsAt.lt_length (hAt : cursor.IsAt table source place) :
    place < (tokenize table source).length :=
  (List.getElem?_eq_some_iff.mp hAt.inView).1

theorem isAt_ofScanner {scanner : Scanner} (hStands : Feed.Stands table source place scanner)
    (hPlace : place < (tokenize table source).length) :
    (ofScanner table scanner).IsAt table source place := by
  obtain ⟨hToken, hNext⟩ := hStands.next
  have remaining := hNext.remaining_eq_slice
  rw [Feed.stopOf_succ, ← hToken] at remaining
  rw [List.getD_eq_getElem?_getD, List.getElem?_eq_getElem hPlace, Option.getD_some] at hToken
  refine ⟨?_, rfl, remaining⟩
  rw [List.getElem?_eq_getElem hPlace, ← hToken]
  rfl

theorem isAt_start (table : PrecedenceTable) (source : String) :
    (start table source).IsAt table source 0 := by
  apply isAt_ofScanner (Feed.stands_start table source)
  rw [Feed.tokenize_eq_inner_append, List.length_append]
  exact Nat.succ_pos _

/-- There is one cursor at a place. -/
theorem IsAt.unique {other : Cursor} (hAt : cursor.IsAt table source place)
    (hOther : other.IsAt table source place) : cursor = other := by
  have current : cursor.current = other.current :=
    Option.some.inj (hAt.inView.symm.trans hOther.inView)
  have offset : cursor.scanner.offset = other.scanner.offset := by
    rw [hAt.offset, hOther.offset, current]
  have otherRemaining := hOther.remaining
  rw [← current] at otherRemaining
  have remaining : cursor.scanner.remaining = other.scanner.remaining :=
    Option.some.inj (hAt.remaining.symm.trans otherRemaining)
  obtain ⟨token, ⟨_, _⟩, _⟩ := cursor
  obtain ⟨otherToken, ⟨_, _⟩, _⟩ := other
  cases current
  cases offset
  cases remaining
  rfl

/-- A cursor comes to its place from the scanner that stands in front of it. -/
theorem IsAt.exists_scanner (hAt : cursor.IsAt table source place) :
    ∃ scanner, Feed.Stands table source place scanner ∧ cursor = ofScanner table scanner := by
  obtain ⟨scanner, hStands⟩ := Feed.exists_stands table source place
  exact ⟨scanner, hStands, hAt.unique (isAt_ofScanner hStands hAt.lt_length)⟩

/-- The end of input is in view at the last place, and nowhere else. -/
theorem IsAt.isEnd_iff (hAt : cursor.IsAt table source place) :
    cursor.current.isEnd = true ↔ (tokenize table source).length = place + 1 := by
  have within := hAt.lt_length
  have inView := hAt.inView
  rw [Feed.tokenize_eq_inner_append, List.length_append, List.length_singleton] at within ⊢
  rw [Feed.tokenize_eq_inner_append] at inView
  rcases Nat.lt_or_ge place (Feed.inner table source).length with before | last
  · rw [List.getElem?_append_left before] at inView
    have noEnd := Feed.isEnd_eq_false_of_mem_inner (List.mem_of_getElem? inView)
    simp only [noEnd, Bool.false_eq_true, false_iff]
    omega
  · rw [List.getElem?_append_right last] at inView
    have atEnd : cursor.current = Token.endAt source.utf8ByteSize :=
      List.mem_singleton.mp (List.mem_of_getElem? inView)
    rw [atEnd]
    simp only [Token.endAt, Token.isEnd, beq_self_eq_true, true_iff]
    omega

/-! ### Moving on -/

theorem IsAt.advance (hAt : cursor.IsAt table source place)
    (hToken : cursor.current.isEnd = false) :
    (cursor.advance table).IsAt table source (place + 1) := by
  have within := hAt.lt_length
  have notLast : (tokenize table source).length ≠ place + 1 := by
    rw [Ne, ← hAt.isEnd_iff, hToken]
    exact Bool.false_ne_true
  obtain ⟨scanner, hStands, rfl⟩ := hAt.exists_scanner
  exact isAt_ofScanner hStands.next.2 (by omega)

theorem IsAt.advance_of_isEnd (hAt : cursor.IsAt table source place)
    (hEnd : cursor.current.isEnd = true) : (cursor.advance table).IsAt table source place := by
  obtain ⟨scanner, _, rfl⟩ := hAt.exists_scanner
  rw [Cursor.advance_of_isEnd ⟨scanner, rfl⟩ hEnd]
  exact hAt

theorem IsAt.exists_advance (hAt : cursor.IsAt table source place) :
    ∃ next, place ≤ next ∧ (cursor.advance table).IsAt table source next := by
  cases hEnd : cursor.current.isEnd with
  | true => exact ⟨place, Nat.le_refl place, hAt.advance_of_isEnd hEnd⟩
  | false => exact ⟨place + 1, Nat.le_succ place, hAt.advance hEnd⟩

theorem IsAt.grouping (hAt : cursor.IsAt table source place)
    (hToken : cursor.current.isEnd = false) (minimum : Nat) :
    ∃ next, place < next ∧ (cursor.grouping table minimum).2.val.IsAt table source next := by
  -- Once the first token is behind it, a cursor stays beyond that, however far it moves on.
  have forward : ∀ behind : Cursor,
      (∃ next, place < next ∧ behind.IsAt table source next) →
        ∃ next, place < next ∧ (behind.advance table).IsAt table source next := by
    intro behind hBehind
    obtain ⟨next, beyond, hNext⟩ := hBehind
    obtain ⟨further, onward, hFurther⟩ := hNext.exists_advance
    exact ⟨further, Nat.lt_of_lt_of_le beyond onward, hFurther⟩
  have first : ∃ next, place < next ∧ (cursor.advance table).IsAt table source next :=
    ⟨place + 1, Nat.lt_succ_self place, hAt.advance hToken⟩
  exact holds_behind_grouping forward minimum first

theorem IsAt.grouping_of_isEnd (hAt : cursor.IsAt table source place)
    (hEnd : cursor.current.isEnd = true) (minimum : Nat) :
    (cursor.grouping table minimum).2.val.IsAt table source place := by
  have stays : ∀ behind : Cursor, behind.IsAt table source place →
      (behind.advance table).IsAt table source place := by
    intro behind hBehind
    obtain rfl : cursor = behind := hAt.unique hBehind
    exact hAt.advance_of_isEnd hEnd
  exact holds_behind_grouping stays minimum (hAt.advance_of_isEnd hEnd)

/-! ### Steps from place to place -/

/-- What a step tells of the token at a place, and to which place it leads. -/
inductive Moves {V : Type} (table : PrecedenceTable) (place : Nat) (token : Token) :
    Step → Reply V → Nat → Prop
  | current : Moves table place token .current (.token token) place
  | rank {rank? : Option Nat}
      (hRank : ∀ rank, rank? = some rank ↔ token.isEnd = false ∧ 1 ≤ rank ∧
        (table.level? token.text).map Level.rank = some rank) :
      Moves table place token .rank (.rank? rank?) place
  | advance (hToken : token.isEnd = false) :
      Moves table place token .advance (.token token) (place + 1)
  | advanceAtEnd (hEnd : token.isEnd = true) :
      Moves table place token .advance (.token token) place
  | expression {minimum next : Nat} {value : V} (hToken : token.isEnd = false)
      (hForward : place < next) :
      Moves table place token (.expression minimum) (.value value) next
  | expressionAtEnd {minimum : Nat} {value : V} (hEnd : token.isEnd = true) :
      Moves table place token (.expression minimum) (.value value) place

/-- The cursor stands at a place, and from there the steps lead it from place to place. -/
inductive Walks {V : Type} (interpretation : PureInterpretation V) (table : PrecedenceTable)
    (source : String) : Nat → Cursor → List Step → Prop
  | done {place : Nat} {cursor : Cursor} (hAt : cursor.IsAt table source place) :
      Walks interpretation table source place cursor []
  | step {place next : Nat} {cursor : Cursor} {step : Step} {steps : List Step}
      (hAt : cursor.IsAt table source place)
      (hMoves : Moves table place cursor.current step
        (cursor.answer interpretation table step).1 next)
      (hWalks : Walks interpretation table source next
        (cursor.answer interpretation table step).2 steps) :
      Walks interpretation table source place cursor (step :: steps)

theorem map_rank_level?_eq_some_iff (table : PrecedenceTable) (cursor : Cursor) (rank : Nat) :
    (cursor.level? table).map Level.rank = some rank ↔
      cursor.current.isEnd = false ∧ 1 ≤ rank ∧
        (table.level? cursor.current.text).map Level.rank = some rank := by
  cases hEnd : cursor.current.isEnd with
  | true => simp [level?, hEnd]
  | false =>
      simp only [level?, hEnd, Bool.false_eq_true, if_false, true_and]
      constructor
      · intro hRank
        obtain ⟨level, _, rfl⟩ := Option.map_eq_some_iff.mp hRank
        exact ⟨level.positive, hRank⟩
      · intro hRank
        exact hRank.2

variable {V : Type} (interpretation : PureInterpretation V)

theorem IsAt.answer (hAt : cursor.IsAt table source place) (step : Step) :
    ∃ next,
      Moves table place cursor.current step (cursor.answer interpretation table step).1 next ∧
        (cursor.answer interpretation table step).2.IsAt table source next := by
  cases step with
  | current => exact ⟨place, .current, hAt⟩
  | rank => exact ⟨place, .rank (map_rank_level?_eq_some_iff table cursor), hAt⟩
  | advance =>
      cases hEnd : cursor.current.isEnd with
      | true => exact ⟨place, .advanceAtEnd hEnd, hAt.advance_of_isEnd hEnd⟩
      | false => exact ⟨place + 1, .advance hEnd, hAt.advance hEnd⟩
  | expression minimum =>
      rw [Cursor.answer, run_expression]
      cases hEnd : cursor.current.isEnd with
      | true => exact ⟨place, .expressionAtEnd hEnd, hAt.grouping_of_isEnd hEnd minimum⟩
      | false =>
          obtain ⟨next, hForward, hNext⟩ := hAt.grouping hEnd minimum
          exact ⟨next, .expression hEnd hForward, hNext⟩

theorem IsAt.walks (hAt : cursor.IsAt table source place) (steps : List Step) :
    Walks interpretation table source place cursor steps := by
  induction steps generalizing place cursor with
  | nil => exact .done hAt
  | cons step steps ih =>
      obtain ⟨next, hMoves, hNext⟩ := hAt.answer interpretation step
      exact .step hAt hMoves (ih hNext)

end Cursor

/-- Steps in any order lead a cursor along the tokens of its expression, from the first one
on. -/
theorem every_walk_leads_along_tokens {V : Type} (interpretation : PureInterpretation V)
    (table : PrecedenceTable) (source : String) (steps : List Cursor.Step) :
    Cursor.Walks interpretation table source 0 (Cursor.start table source) steps :=
  (Cursor.isAt_start table source).walks interpretation steps

/-- An expression that starts on an operator takes it for an operand. -/
example :
    let operator := (Cursor.start .standard "1 + 2").advance .standard
    (operator.answer Grouping.interpretation .standard .rank).1 = .rank? (some 4) ∧
      (operator.answer Grouping.interpretation .standard (.expression 1)).1 =
        .value (.operand "+") := by
  decide +kernel

end OperatorCalculator
