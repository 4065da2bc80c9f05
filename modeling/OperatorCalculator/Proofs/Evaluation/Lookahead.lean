import OperatorCalculator.Evaluation.Climb
import OperatorCalculator.Proofs.Token.Cuts

/-
Tokens ahead of a cursor.

A cursor holds one token and a scanner, but what an evaluation reads is a list of
tokens.  This module says which list lies ahead: it starts with the token in view,
ends with the end of input, and loses its first token when the cursor moves on.
The cursors that an evaluation can come to all stand in the token list of the
expression.
-/

set_option autoImplicit false

namespace OperatorCalculator

/-- The level at which a token binds as an operator. -/
def Token.level? (table : PrecedenceTable) (token : Token) : Option Level :=
  if token.isEnd then none else table.level? token.text

theorem Token.isEnd_eq_false_of_level? {table : PrecedenceTable} {token : Token}
    {level : Level} (hLevel : token.level? table = some level) : token.isEnd = false := by
  cases hEnd : token.isEnd with
  | false => rfl
  | true =>
      rw [Token.level?, if_pos hEnd] at hLevel
      contradiction

namespace Cursor

/-! ### The list ahead -/

/-- The token in view and all tokens behind it, up to the end of input. -/
def upcoming (table : PrecedenceTable) (cursor : Cursor) : List Token :=
  if cursor.current.isEnd then [cursor.current]
  else cursor.current :: (cursor.scanner.drain table).1

theorem upcoming_ofScanner (table : PrecedenceTable) (scanner : Scanner) :
    (ofScanner table scanner).upcoming table = (scanner.drain table).1 := by
  cases hEnd : (scanner.next table).1.isEnd with
  | true =>
      rw [Scanner.drain_of_isEnd hEnd]
      exact if_pos hEnd
  | false =>
      rw [Scanner.drain_of_not_isEnd hEnd]
      exact if_neg (by simp only [ofScanner, hEnd, Bool.false_eq_true, not_false_eq_true])

theorem upcoming_start (table : PrecedenceTable) (source : String) :
    (start table source).upcoming table = tokenize table source :=
  upcoming_ofScanner table (.start source)

theorem upcoming_of_isEnd {table : PrecedenceTable} {cursor : Cursor}
    (hEnd : cursor.current.isEnd = true) : cursor.upcoming table = [cursor.current] :=
  if_pos hEnd

theorem upcoming_eq_cons_advance {table : PrecedenceTable} {cursor : Cursor}
    (hToken : cursor.current.isEnd = false) :
    cursor.upcoming table = cursor.current :: (cursor.advance table).upcoming table := by
  rw [advance, upcoming_ofScanner]
  exact if_neg (by simp only [hToken, Bool.false_eq_true, not_false_eq_true])

theorem upcoming_eq_cons (table : PrecedenceTable) (cursor : Cursor) :
    ∃ behind, cursor.upcoming table = cursor.current :: behind := by
  cases hEnd : cursor.current.isEnd with
  | true => exact ⟨[], upcoming_of_isEnd hEnd⟩
  | false => exact ⟨_, upcoming_eq_cons_advance hEnd⟩

theorem head?_upcoming (table : PrecedenceTable) (cursor : Cursor) :
    (cursor.upcoming table).head? = some cursor.current := by
  obtain ⟨behind, hBehind⟩ := upcoming_eq_cons table cursor
  rw [hBehind, List.head?_cons]

/-! ### Cursors on a scanned token -/

/-- The token in view is the one that a scanner came upon. -/
def IsScanned (table : PrecedenceTable) (cursor : Cursor) : Prop :=
  ∃ scanner, cursor = ofScanner table scanner

theorem isScanned_start (table : PrecedenceTable) (source : String) :
    (start table source).IsScanned table :=
  ⟨.start source, rfl⟩

theorem isScanned_advance (table : PrecedenceTable) (cursor : Cursor) :
    (cursor.advance table).IsScanned table :=
  ⟨cursor.scanner, rfl⟩

theorem advance_of_isEnd {table : PrecedenceTable} {cursor : Cursor}
    (hScanned : cursor.IsScanned table) (hEnd : cursor.current.isEnd = true) :
    cursor.advance table = cursor := by
  obtain ⟨scanner, rfl⟩ := hScanned
  have again := scanner.next_next_of_isEnd table hEnd
  simp only [advance, ofScanner, again]

/-- Moving on drops the token in view, but never the end of input. -/
theorem upcoming_advance_suffix {table : PrecedenceTable} {cursor : Cursor}
    (hScanned : cursor.IsScanned table) :
    (cursor.advance table).upcoming table <:+ cursor.upcoming table := by
  cases hEnd : cursor.current.isEnd with
  | true =>
      have same := congrArg (Cursor.upcoming table) (advance_of_isEnd hScanned hEnd)
      exact ⟨[], same⟩
  | false =>
      rw [upcoming_eq_cons_advance hEnd]
      exact List.suffix_cons _ _

end Cursor
end OperatorCalculator
