import OperatorCalculator.Token.Scanner

/-
Cursors.

A cursor looks at one token of an expression and can move on to the next.  Behind
the end of input there is only the end of input, so a cursor can always move.  How
much is pending bounds how far a cursor can still go.
-/

set_option autoImplicit false

namespace OperatorCalculator

structure Cursor where
  current : Token
  scanner : Scanner
  nothingBehindEnd : current.isEnd = true → scanner.remaining = []

namespace Cursor

def ofScanner (table : PrecedenceTable) (scanner : Scanner) : Cursor :=
  ⟨(scanner.next table).1, (scanner.next table).2, scanner.next_remaining_of_isEnd table⟩

def start (table : PrecedenceTable) (source : String) : Cursor :=
  ofScanner table (.start source)

def advance (table : PrecedenceTable) (cursor : Cursor) : Cursor :=
  ofScanner table cursor.scanner

/-- The level of the token in view, if it is an operator of the table. -/
def level? (table : PrecedenceTable) (cursor : Cursor) : Option Level :=
  if cursor.current.isEnd then none else table.level? cursor.current.text

/-- A bound on the number of tokens from here on, the end of input not counted. -/
def pending (cursor : Cursor) : Nat :=
  cursor.scanner.remaining.length + if cursor.current.isEnd then 0 else 1

theorem pending_ofScanner (table : PrecedenceTable) (scanner : Scanner) :
    (ofScanner table scanner).pending ≤ scanner.remaining.length := by
  cases hEnd : (scanner.next table).1.isEnd with
  | true =>
      have nothing := scanner.next_remaining_of_isEnd table hEnd
      simp [pending, ofScanner, hEnd, nothing]
  | false =>
      have shorter := scanner.next_remaining_length_lt table hEnd
      simp only [pending, ofScanner, hEnd, Bool.false_eq_true, if_false]
      omega

theorem pending_advance_le (table : PrecedenceTable) (cursor : Cursor) :
    (cursor.advance table).pending ≤ cursor.pending := by
  have bound := pending_ofScanner table cursor.scanner
  simp only [advance]
  unfold pending at bound ⊢
  omega

theorem pending_advance_lt (table : PrecedenceTable) {cursor : Cursor}
    (hToken : cursor.current.isEnd = false) :
    (cursor.advance table).pending < cursor.pending := by
  have bound := pending_ofScanner table cursor.scanner
  simp only [advance]
  unfold pending at bound ⊢
  simp only [hToken, Bool.false_eq_true, if_false]
  omega

theorem isEnd_eq_false_of_level? {table : PrecedenceTable} {cursor : Cursor} {level : Level}
    (hLevel : cursor.level? table = some level) : cursor.current.isEnd = false := by
  unfold level? at hLevel
  split at hLevel
  · contradiction
  · simpa using ‹¬cursor.current.isEnd = true›

abbrev Onward (origin : Cursor) : Type :=
  { cursor : Cursor // cursor.pending ≤ origin.pending }

/-- A cursor that the next token leads to, seen from where the cursor came from. -/
def followOn {table : PrecedenceTable} {origin : Cursor} (cursor : origin.Onward)
    (behind : (cursor.val.advance table).Onward) : origin.Onward :=
  ⟨behind.val, Nat.le_trans behind.property
    (Nat.le_trans (pending_advance_le table cursor.val) cursor.property)⟩

/-- The text of the operand at a cursor, and the cursor behind it.  Any single token is
an operand; a sign is one together with the word that it belongs to. -/
def operand (table : PrecedenceTable) (cursor : Cursor) : String × cursor.Onward :=
  let after := cursor.advance table
  if cursor.current.isSignOf after.current then
    (cursor.current.text ++ after.current.text,
      ⟨after.advance table,
        Nat.le_trans (pending_advance_le table after) (pending_advance_le table cursor)⟩)
  else
    (cursor.current.text, ⟨after, pending_advance_le table cursor⟩)

end Cursor
end OperatorCalculator
