import OperatorCalculator.PrecedenceTable.Basic
import OperatorCalculator.Text.Offset
import OperatorCalculator.Token.Basic

/-
Scanning an expression.

A scanner holds what is left of an expression and the byte offset where that
starts.  Each step skips a gap and takes one token off the front.  A quoted text
runs to the first double quote that no backslash escapes, or to the end.  A run of
symbols is cut after its longest beginning that the precedence table knows, and is
taken whole if the table knows none.
-/

set_option autoImplicit false

namespace OperatorCalculator

/-! ### One lexeme -/

/-- The front of a text that holds no gap: its class, its characters, and the rest. -/
structure Lexeme where
  kind : TokenKind
  characters : List Char
  rest : List Char

/-- Splits behind the double quote that closes a quoted text, given what follows the
opening one.  A backslash hides the character after it. -/
def splitQuoted : List Char → List Char × List Char
  | [] => ([], [])
  | '"' :: rest => (['"'], rest)
  | ['\\'] => (['\\'], [])
  | '\\' :: hidden :: rest =>
      let (front, back) := splitQuoted rest
      ('\\' :: hidden :: front, back)
  | character :: rest =>
      let (front, back) := splitQuoted rest
      (character :: front, back)

/-- How many characters the longest known operator at the front of a run has.  The
characters in `seen` come first and number `count`; `longest` is the best so far. -/
def longestOperatorFrom (table : PrecedenceTable) (seen : String) (count : Nat)
    (longest : Option Nat) : List Char → Option Nat
  | [] => longest
  | symbol :: run =>
      let extended := seen.push symbol
      longestOperatorFrom table extended (count + 1)
        (if table.contains extended then some (count + 1) else longest) run

def operatorLength (table : PrecedenceTable) (run : List Char) : Nat :=
  (longestOperatorFrom table "" 0 none run).getD run.length

def Lexeme.read (table : PrecedenceTable) : List Char → Lexeme
  | [] => ⟨.endOfInput, [], []⟩
  | '"' :: rest =>
      let (front, back) := splitQuoted rest
      ⟨.quoted, '"' :: front, back⟩
  | first :: rest =>
      if isWordCharacter first then
        ⟨.word, first :: rest.takeWhile isWordCharacter, rest.dropWhile isWordCharacter⟩
      else
        let length := operatorLength table (first :: rest.takeWhile isSymbol)
        ⟨.operator, (first :: rest).take length, (first :: rest).drop length⟩

theorem splitQuoted_append (characters : List Char) :
    (splitQuoted characters).1 ++ (splitQuoted characters).2 = characters := by
  fun_induction splitQuoted characters <;> simp_all

theorem longestOperatorFrom_eq (table : PrecedenceTable) (seen : String) (count : Nat)
    (longest : Option Nat) (run : List Char) :
    longestOperatorFrom table seen count longest run = longest ∨
      ∃ length, longestOperatorFrom table seen count longest run = some length ∧
        count < length := by
  induction run generalizing seen count longest with
  | nil => exact Or.inl rfl
  | cons symbol run ih =>
      rw [longestOperatorFrom]
      rcases ih (seen.push symbol) (count + 1)
          (if table.contains (seen.push symbol) then some (count + 1) else longest) with
        same | ⟨length, hLength, longer⟩
      · split at same
        · rename_i known
          simp only [known, if_true]
          exact Or.inr ⟨count + 1, by simpa [known] using same, by omega⟩
        · rename_i unknown
          simp only [unknown]
          exact Or.inl (by simpa [unknown] using same)
      · exact Or.inr ⟨length, hLength, by omega⟩

theorem operatorLength_pos (table : PrecedenceTable) {run : List Char} (hRun : run ≠ []) :
    0 < operatorLength table run := by
  rw [operatorLength]
  rcases longestOperatorFrom_eq table "" 0 none run with same | ⟨length, hLength, longer⟩
  · rw [same]
    exact List.length_pos_iff.mpr hRun
  · rw [hLength]
    exact longer

theorem Lexeme.read_append (table : PrecedenceTable) (characters : List Char) :
    (Lexeme.read table characters).characters ++ (Lexeme.read table characters).rest =
      characters := by
  unfold Lexeme.read
  split
  · rfl
  · simp [splitQuoted_append]
  · split
    · simp
    · simp

theorem Lexeme.read_kind_eq_endOfInput_iff (table : PrecedenceTable)
    (characters : List Char) :
    (Lexeme.read table characters).kind = .endOfInput ↔ characters = [] := by
  unfold Lexeme.read
  split
  · simp
  · simp
  · split <;> simp

theorem Lexeme.read_characters_ne_nil (table : PrecedenceTable) {characters : List Char}
    (hCharacters : characters ≠ []) :
    (Lexeme.read table characters).characters ≠ [] := by
  unfold Lexeme.read
  split
  · contradiction
  · simp
  · rename_i first rest _notQuote
    split
    · simp
    · have positive := operatorLength_pos table
        (List.cons_ne_nil first (rest.takeWhile isSymbol))
      simp only [ne_eq, List.take_eq_nil_iff, reduceCtorEq, or_false]
      omega

/-! ### Scanners -/

structure Scanner where
  offset : Nat
  remaining : List Char

namespace Scanner

def start (source : String) : Scanner :=
  ⟨0, source.toList⟩

def isAtEnd (scanner : Scanner) : Bool :=
  scanner.remaining.isEmpty

/-- Skips a gap and takes one token off the front.  At the end the token is the end of
input, again and again. -/
def next (table : PrecedenceTable) (scanner : Scanner) : Token × Scanner :=
  let start := scanner.offset + Text.byteLength (scanner.remaining.takeWhile isGap)
  let lexeme := Lexeme.read table (scanner.remaining.dropWhile isGap)
  let stop := start + Text.byteLength lexeme.characters
  (⟨lexeme.kind, String.ofList lexeme.characters, ⟨start, stop⟩⟩, ⟨stop, lexeme.rest⟩)

theorem next_remaining_of_isEnd (table : PrecedenceTable) (scanner : Scanner)
    (hEnd : (scanner.next table).1.isEnd = true) :
    (scanner.next table).2.remaining = [] := by
  have kind : (Lexeme.read table (scanner.remaining.dropWhile isGap)).kind = .endOfInput := by
    simpa [next, Token.isEnd] using hEnd
  have nothing := (Lexeme.read_kind_eq_endOfInput_iff table _).mp kind
  show (Lexeme.read table (scanner.remaining.dropWhile isGap)).rest = []
  rw [nothing]
  rfl

theorem next_remaining_length_lt (table : PrecedenceTable) (scanner : Scanner)
    (hToken : (scanner.next table).1.isEnd = false) :
    (scanner.next table).2.remaining.length < scanner.remaining.length := by
  have kind : (Lexeme.read table (scanner.remaining.dropWhile isGap)).kind ≠ .endOfInput := by
    simpa [next, Token.isEnd] using hToken
  have something : scanner.remaining.dropWhile isGap ≠ [] := fun nothing =>
    kind ((Lexeme.read_kind_eq_endOfInput_iff table _).mpr nothing)
  have whole := congrArg List.length
    (Lexeme.read_append table (scanner.remaining.dropWhile isGap))
  have taken := List.length_pos_iff.mpr (Lexeme.read_characters_ne_nil table something)
  have skipped := (List.dropWhile_suffix (l := scanner.remaining) isGap).length_le
  rw [List.length_append] at whole
  show (Lexeme.read table (scanner.remaining.dropWhile isGap)).rest.length < _
  omega

/-- The tokens of what is left, up to and with the end of input, and the scanner
behind them. -/
def drain (table : PrecedenceTable) (scanner : Scanner) : List Token × Scanner :=
  let step := scanner.next table
  if _hEnd : step.1.isEnd then
    ([step.1], step.2)
  else
    let (tokens, behind) := step.2.drain table
    (step.1 :: tokens, behind)
termination_by scanner.remaining.length
decreasing_by exact next_remaining_length_lt table scanner (by simpa using _hEnd)

end Scanner

/-- The tokens of an expression.  The last one is the end of input. -/
def tokenize (table : PrecedenceTable) (source : String) : List Token :=
  ((Scanner.start source).drain table).1

end OperatorCalculator
