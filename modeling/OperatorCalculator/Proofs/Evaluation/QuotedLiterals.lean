import OperatorCalculator.Proofs.Evaluation.Alternation
import OperatorCalculator.Proofs.Token.Neighbours
import OperatorCalculator.Proofs.Value.Printed
import OperatorCalculator.Trace

/-
Where a quoted literal ends.

To the scanner an escape is a backslash and one character, to the reader of literals it is
up to ten characters.  Both still find the same closing quote, because none of the characters
that an escape takes beyond the first is a double quote or a backslash.  So a literal is a
token whatever is behind it, and a token without a closing quote is no literal.
-/

set_option autoImplicit false

namespace OperatorCalculator

/-! ### Literals as tokens -/

/-- A quoted literal is the first token in front of any text, and that is scanned on its own. -/
theorem tokenize_textLiteral_append (table : PrecedenceTable) {literal characters : String}
    (hLiteral : Value.textLiteral? literal = some characters) (rest : String) :
    tokenize table (literal ++ rest) =
      ⟨.quoted, literal, ⟨0, literal.utf8ByteSize⟩⟩ ::
        (tokenize table rest).map (Token.movedBy literal.utf8ByteSize) := by
  rcases Option.map_eq_some_iff.mp hLiteral with ⟨decoded, hDecode, _⟩
  rcases Text.inert_of_decode? hDecode with ⟨body, hText, hBody⟩
  have read := Lexeme.read_quoted table hBody rest.toList
  have drained := Scanner.drain_of_read 0 List.all_nil rfl TokenKind.noConfusion read
  rw [← hText, ← String.toList_append, List.nil_append, String.ofList_toList,
    Text.byteLength_nil, Nat.zero_add, Nat.zero_add, Text.byteLength_toList] at drained
  rw [map_movedBy_tokenize]
  exact drained

theorem isTerminated_of_textLiteral? {token : Token} {characters : String}
    (hQuoted : token.kind = .quoted)
    (hLiteral : Value.textLiteral? token.text = some characters) : token.isTerminated = true := by
  rcases Option.map_eq_some_iff.mp hLiteral with ⟨decoded, hDecode, _⟩
  rcases Text.inert_of_decode? hDecode with ⟨body, hText, hBody⟩
  rw [Token.isTerminated_of_quoted hQuoted, hText]
  exact hBody.endsInQuote

/-! ### Operands without a closing quote -/

variable {table : PrecedenceTable} {source : String} {token : Token}

theorem textLiteral?_of_not_isTerminated (hQuoted : token.kind = .quoted)
    (hOpen : token.isTerminated = false) : Value.textLiteral? token.text = none := by
  cases hLiteral : Value.textLiteral? token.text with
  | none => rfl
  | some characters =>
      rw [isTerminated_of_textLiteral? hQuoted hLiteral] at hOpen
      contradiction

theorem ofLiteral_of_not_isTerminated (hToken : token ∈ tokenize table source)
    (hQuoted : token.kind = .quoted) (hOpen : token.isTerminated = false) :
    Value.ofLiteral token.text = .failure (.illegalLiteral token.text) := by
  rcases Token.exists_body_of_quoted hToken hQuoted with ⟨body, hText⟩
  have hQuote : token.text.toList.head? = some '"' := by
    rw [hText]
    rfl
  rw [Value.ofLiteral_of_quote hQuote, textLiteral?_of_not_isTerminated hQuoted hOpen]
  rfl

namespace Cursor

variable {cursor : Cursor} {V : Type}

/-- A cursor is on a quoted token without a closing quote only in front of the end of input. -/
theorem isEnd_advance_of_not_isTerminated (hScanned : cursor.IsScanned table)
    (hQuoted : cursor.current.kind = .quoted) (hOpen : cursor.current.isTerminated = false) :
    (cursor.advance table).current.isEnd = true := by
  rcases hScanned with ⟨scanner, rfl⟩
  have hTakes := Scanner.takes_next (Token.isEnd_eq_false_of_kind hQuoted TokenKind.noConfusion)
  rw [show (scanner.next table).1.kind = .quoted from hQuoted] at hTakes
  rw [Token.isTerminated_of_quoted hQuoted] at hOpen
  rcases hTakes.quoted_cases with ⟨inner, hInner, hText⟩ | ⟨body, _, _, hRest⟩
  · have closed := hInner.endsInQuote
    rw [← hText] at closed
    exact absurd closed (Bool.eq_false_iff.mp hOpen)
  · show ((scanner.next table).2.next table).1.isEnd = true
    rw [Scanner.isEnd_next_iff, hRest]
    rfl

theorem operand_of_isEnd_advance (hEnd : (cursor.advance table).current.isEnd = true) :
    cursor.operand table =
      (cursor.current.text, ⟨cursor.advance table, pending_advance_le table cursor⟩) := by
  apply operand_of_not_isSignOf
  rw [Bool.eq_false_iff]
  intro hSign
  rw [(Token.isEnd_eq_false_of_isSignOf hSign).2] at hEnd
  contradiction

/-- In front of the end of input an expression is a single operand. -/
theorem expression_of_isEnd_advance (interpretation : PureInterpretation V) (minimum : Nat)
    (hEnd : (cursor.advance table).current.isEnd = true) :
    (Id.run (cursor.expression interpretation table minimum)).1 =
      Id.run (interpretation.literal cursor.current.text) := by
  have noLevel : (cursor.advance table).level? table = none := if_pos hEnd
  unfold expression
  rw [operand_of_isEnd_advance hEnd]
  exact congrArg Prod.fst (climb_of_level?_eq_none interpretation minimum _ noLevel)

end Cursor

/-- The scanner and the reader of literals agree where a quoted text ends: a literal is the
first token in front of any other text, and a quoted token without a closing quote is no
literal, so that it fails as the operand at any cursor and as the expression from there on. -/
theorem quoted_literals_are_terminated_tokens (table : PrecedenceTable) :
    (∀ literal characters : String, Value.textLiteral? literal = some characters →
      ∀ rest : String, ∃ first : Token,
        tokenize table (literal ++ rest) =
          first :: (tokenize table rest).map (Token.movedBy literal.utf8ByteSize) ∧
        first.kind = .quoted ∧ first.text = literal ∧ first.isTerminated = true) ∧
      ∀ source : String, ∀ token ∈ tokenize table source,
        token.kind = .quoted → token.isTerminated = false →
        Value.textLiteral? token.text = none ∧
          ∀ cursor : Cursor, cursor.IsScanned table → cursor.current = token →
            Id.run (Value.interpretation.literal (cursor.operand table).1) =
                .failure (.illegalLiteral token.text) ∧
              ∀ minimum, (Id.run (cursor.expression Value.interpretation table minimum)).1 =
                .failure (.illegalLiteral token.text) := by
  constructor
  · intro literal characters hLiteral rest
    refine ⟨_, tokenize_textLiteral_append table hLiteral rest, rfl, rfl, ?_⟩
    exact isTerminated_of_textLiteral? rfl hLiteral
  · intro source token hToken hQuoted hOpen
    refine ⟨textLiteral?_of_not_isTerminated hQuoted hOpen, ?_⟩
    intro cursor hScanned hCurrent
    have fails := ofLiteral_of_not_isTerminated hToken hQuoted hOpen
    rw [← hCurrent] at hQuoted hOpen fails ⊢
    have hEnd := Cursor.isEnd_advance_of_not_isTerminated hScanned hQuoted hOpen
    constructor
    · rw [Cursor.operand_of_isEnd_advance hEnd]
      exact fails
    · intro minimum
      rw [Cursor.expression_of_isEnd_advance Value.interpretation minimum hEnd]
      exact fails

/-- A literal that ends with escapes of a double quote and of a backslash, and behind it a text
whose last double quote is escaped. -/
theorem quoted_literals_are_terminated_tokens_behind_escapes :
    let literal := "\"é\\u\x7b1F600\x7d\\x22\\\"\\\\\""
    let rest := "*\"b\\\""
    let opened : Token := ⟨.quoted, "\"b\\\"", ⟨22, 26⟩⟩
    Value.textLiteral? literal = some "é😀\"\"\\" ∧
      (∃ first : Token,
        tokenize .standard (literal ++ rest) =
          first :: (tokenize .standard rest).map (Token.movedBy literal.utf8ByteSize) ∧
        first.kind = .quoted ∧ first.text = literal ∧ first.isTerminated = true) ∧
      opened ∈ tokenize .standard (literal ++ rest) ∧ opened.isTerminated = false ∧
      Value.textLiteral? opened.text = none := by
  intro literal rest opened
  have agrees := quoted_literals_are_terminated_tokens .standard
  have hLiteral : Value.textLiteral? literal = some "é😀\"\"\\" := by decide +kernel
  have member : opened ∈ tokenize .standard (literal ++ rest) := by decide +kernel
  have hOpen : opened.isTerminated = false := by decide +kernel
  refine ⟨hLiteral, ?_, member, hOpen, ?_⟩
  · exact agrees.1 literal _ hLiteral rest
  · exact (agrees.2 (literal ++ rest) opened member rfl hOpen).1

end OperatorCalculator
