import OperatorCalculator.Evaluation.Climb
import OperatorCalculator.Fault.Basic

/-
Strict evaluation.

A well-formed expression is a sequence of operands with an operator between any two
and nothing left over.  An operand is a sign with its word, or one token that is no
operator of the table, not the end of input, and not a quoted text without its
closing quote.  Strict evaluation refuses an expression at its first fault.  Only the
shape counts: an operand need not be a literal.
-/

set_option autoImplicit false

namespace OperatorCalculator

def Token.isOperatorOf (table : PrecedenceTable) (token : Token) : Bool :=
  !token.isEnd && table.contains token.text

/-- The fault of a single token that stands where an operand should. -/
def Token.operandFault? (table : PrecedenceTable) (token : Token) : Option Fault :=
  if token.isEnd || token.isOperatorOf table then
    some ⟨.expectedOperand token.text, token.span.start⟩
  else if token.kind == .quoted && !token.isTerminated then
    some ⟨.unterminatedString token.text, token.span.start⟩
  else
    none

mutual

/-- The first fault of tokens that should begin with an operand. -/
def faultAtOperand? (table : PrecedenceTable) : List Token → Option Fault
  | [] => none
  | [token] => token.operandFault? table
  | token :: next :: rest =>
      if token.isSignOf next then
        faultBehindOperand? table rest
      else
        match token.operandFault? table with
        | some fault => some fault
        | none => faultBehindOperand? table (next :: rest)

/-- The first fault of tokens that follow an operand. -/
def faultBehindOperand? (table : PrecedenceTable) : List Token → Option Fault
  | [] => none
  | token :: rest =>
      if token.isEnd then
        none
      else if token.isOperatorOf table then
        faultAtOperand? table rest
      else
        some ⟨.trailingInput token.text, token.span.start⟩

end

def shapeFault? (table : PrecedenceTable) (source : String) : Option Fault :=
  faultAtOperand? table (tokenize table source)

def evaluateStrict {V : Type} (interpretation : PureInterpretation V)
    (table : PrecedenceTable) (source : String) : Except Fault V :=
  match shapeFault? table source with
  | some fault => .error fault
  | none => .ok (evaluate interpretation table source)

end OperatorCalculator
