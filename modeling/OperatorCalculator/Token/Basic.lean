/-
Tokens.

An expression is cut into words, quoted texts and operators, with gaps between
them.  A gap holds the characters up to the space in code point order; a word
holds ASCII letters, digits and underscores; a double quote opens a quoted text;
every other character is a symbol, of which operators are made.
-/

set_option autoImplicit false

namespace OperatorCalculator

/-! ### Classes of characters -/

def isGap (character : Char) : Bool :=
  character.toNat ≤ 0x20

def isWordCharacter (character : Char) : Bool :=
  character.isAlphanum || character == '_'

/-- The character may stand in an operator that is made of symbols. -/
def isSymbol (character : Char) : Bool :=
  !isGap character && !isWordCharacter character && character != '"'

/-! ### Tokens -/

structure Span where
  start : Nat
  stop : Nat
  deriving DecidableEq

def Span.length (span : Span) : Nat :=
  span.stop - span.start

/-- The class of a token, which its first character decides. -/
inductive TokenKind where
  | endOfInput
  | quoted
  | word
  | operator
  deriving DecidableEq

structure Token where
  kind : TokenKind
  text : String
  span : Span
  deriving DecidableEq

namespace Token

def isEnd (token : Token) : Bool :=
  token.kind == .endOfInput

def display (token : Token) : String :=
  if token.isEnd then "end of input" else token.text

/-- The token is a plus or a minus that belongs to the word right behind it. -/
def isSignOf (sign next : Token) : Bool :=
  sign.kind == .operator && (sign.text == "-" || sign.text == "+") &&
    next.kind == .word && next.span.start == sign.span.stop

/-- Quoted characters end in a double quote of their own: it is not the opening one,
and the backslashes in front of it escape one another. -/
def endsInQuote : List Char → Bool
  | '"' :: rest =>
      match rest.reverse with
      | '"' :: backwards => (backwards.takeWhile (· == '\\')).length % 2 == 0
      | _ => false
  | _ => false

def isTerminated (token : Token) : Bool :=
  token.kind == .quoted && endsInQuote token.text.toList

end Token
end OperatorCalculator
