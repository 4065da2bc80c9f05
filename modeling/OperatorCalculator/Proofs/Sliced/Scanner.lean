import OperatorCalculator.Proofs.Token.Neighbours

/-
Scanning by slices.

The same scan with nothing but a byte offset for its state.  Whatever characters it looks at
or takes it cuts out of the expression between two offsets, and without such a slice it has
no answer, nor has it one after more steps than there are bytes.  This module says that it
always has one and finds the tokens that a scanner finds: all offsets it comes to lie between
two characters.
-/

set_option autoImplicit false

namespace OperatorCalculator

open Text (byteLength slice?)

/-! ### The scan -/

namespace Sliced

/-- What is left of an expression from an offset on. -/
def remainder? (source : String) (offset : Nat) : Option (List Char) :=
  slice? source.toList offset source.utf8ByteSize

/-- The offsets behind the characters of a run that starts at an offset. -/
def stopsFrom (offset : Nat) : List Char → List Nat
  | [] => []
  | character :: run =>
      (offset + character.utf8Size) :: stopsFrom (offset + character.utf8Size) run

/-- The last of some stops at which an operator ends that begins the run, or `last` if none
does.  Each beginning is cut off to look it up. -/
def lastOperatorStop? (table : PrecedenceTable) (run : List Char) (last : Nat) :
    List Nat → Option Nat
  | [] => some last
  | stop :: stops => do
      let front ← slice? run 0 stop
      lastOperatorStop? table run (if table.contains (String.ofList front) then stop else last)
        stops

def operatorStop? (table : PrecedenceTable) (run : List Char) : Option Nat :=
  lastOperatorStop? table run (byteLength run) (stopsFrom 0 run)

/-- The class of the lexeme at the front of some characters, and how many bytes it has.  What
begins no lexeme would be taken for an operator of one character. -/
def measure? (table : PrecedenceTable) : List Char → Option (TokenKind × Nat)
  | [] => some (.operator, 1)
  | '"' :: rest => some (.quoted, byteLength ('"' :: (splitQuoted rest).1))
  | first :: rest =>
      if isWordCharacter first then
        some (.word, byteLength (first :: rest.takeWhile isWordCharacter))
      else if isSymbol first then do
        let stop ← operatorStop? table (first :: rest.takeWhile isSymbol)
        return (.operator, stop)
      else
        some (.operator, first.utf8Size)

/-- The token behind the gap at an offset, and the offset behind the token. -/
def next? (table : PrecedenceTable) (source : String) (offset : Nat) : Option (Token × Nat) := do
  let behind ← remainder? source offset
  let start := offset + byteLength (behind.takeWhile isGap)
  if source.utf8ByteSize ≤ start then
    return (Token.endAt start, start)
  else
    let remaining ← remainder? source start
    let (kind, length) ← measure? table remaining
    let characters ← slice? remaining 0 length
    return (⟨kind, String.ofList characters, ⟨start, start + length⟩⟩, start + length)

/-- The tokens from an offset on, up to and with the end of input, if they are found in a
number of steps. -/
def tokensFrom? (table : PrecedenceTable) (source : String) :
    Nat → Nat → Option (List Token)
  | 0, _ => none
  | steps + 1, offset => do
      let (token, behind) ← next? table source offset
      if token.isEnd then
        return [token]
      else
        let tokens ← tokensFrom? table source steps behind
        return token :: tokens

def tokenize? (table : PrecedenceTable) (source : String) : Option (List Token) :=
  tokensFrom? table source (source.utf8ByteSize + 1) 0

/-- A quoted token ends in a quote that no backslash escapes: not its opening one, and with an
even number of backslashes at the end of the body between the two. -/
def isTerminated? (token : Token) : Option Bool :=
  if token.kind != .quoted || token.text.utf8ByteSize < 2 ||
      token.text.toList.getLast? != some '"' then
    some false
  else do
    let body ← slice? token.text.toList 1 (token.text.utf8ByteSize - 1)
    return (body.reverse.takeWhile (· == '\\')).length % 2 == 0

/-! ### The same scan -/

variable {table : PrecedenceTable} {source : String} {scanner : Scanner}

theorem slice?_append_singleton (front back : List Char) (character : Char) :
    slice? (front ++ character :: back) 0 (byteLength front + character.utf8Size) =
      some (front ++ [character]) := by
  have found := Text.slice?_append [] (front ++ [character]) back
  simpa [Text.byteLength_append] using found

/-- The best stop so far is that of the `longest` operator so far. -/
theorem lastOperatorStop?_eq {run front back : List Char} (hRun : run = front ++ back)
    (longest : Option Nat) :
    lastOperatorStop? table run (byteLength (run.take (longest.getD run.length)))
        (stopsFrom (byteLength front) back) =
      some (byteLength (run.take
        ((longestOperatorFrom table (String.ofList front) front.length longest back).getD
          run.length))) := by
  induction back generalizing front longest with
  | nil => rfl
  | cons character back ih =>
      have split : run = (front ++ [character]) ++ back := by
        rw [hRun, List.append_assoc, List.singleton_append]
      have stop : byteLength (front ++ [character]) = byteLength front + character.utf8Size :=
        Text.byteLength_append front [character]
      have beginning : run.take (front.length + 1) = front ++ [character] := by
        rw [split]
        exact List.take_left' (List.length_append ..)
      have extended : String.ofList (front ++ [character]) =
          (String.ofList front).push character := by
        rw [String.ofList_append, ← String.append_singleton]
        rfl
      have cut := slice?_append_singleton front back character
      have rest := ih split
        (if table.contains (String.ofList (front ++ [character])) then some (front.length + 1)
          else longest)
      rw [← hRun] at cut
      rw [stopsFrom, lastOperatorStop?, cut, longestOperatorFrom, ← extended]
      rw [stop, List.length_append, List.length_singleton] at rest
      rw [← rest, Option.bind_eq_bind, Option.bind_some]
      congr 1
      split
      · rw [Option.getD_some, beginning, stop]
      · rfl

theorem operatorStop?_eq (table : PrecedenceTable) (run : List Char) :
    operatorStop? table run = some (byteLength (run.take (operatorLength table run))) := by
  have stop := @lastOperatorStop?_eq table run [] run rfl none
  rwa [Option.getD_none, List.take_length] at stop

theorem measure?_eq {characters : List Char} (hSome : characters ≠ [])
    (hHead : characters.head?.any isGap = false) :
    measure? table characters =
      some ((Lexeme.read table characters).kind,
        byteLength (Lexeme.read table characters).characters) := by
  cases characters with
  | nil => contradiction
  | cons first rest =>
      by_cases hQuote : first = '"'
      · rw [hQuote]
        rfl
      · have measured : measure? table (first :: rest) =
            if isWordCharacter first then
              some (.word, byteLength (first :: rest.takeWhile isWordCharacter))
            else if isSymbol first then
              (operatorStop? table (first :: rest.takeWhile isSymbol)).bind
                fun stop => some (.operator, stop)
            else some (.operator, first.utf8Size) := by
          rw [measure?]
          · rfl
          · exact hQuote
        rw [measured, Lexeme.read_of_not_quote table hQuote]
        cases hWord : isWordCharacter first with
        | true => rfl
        | false =>
            have noGap : isGap first = false := hHead
            have symbol : isSymbol first = true := by
              simp only [isSymbol, noGap, hWord, bne_iff_ne.mpr hQuote, Bool.not_false,
                Bool.and_self]
            rcases Munches.of_operatorLength table (first :: rest.takeWhile isSymbol) with
              ⟨taken, hMunches, hLength⟩
            have inRun := hMunches.isPrefix
            have inFront := inRun.trans
              (List.cons_prefix_cons.mpr ⟨rfl, List.takeWhile_prefix isSymbol⟩)
            simp only [symbol, if_true, Bool.false_eq_true, if_false, operatorStop?_eq,
              Option.bind_some, hLength, ← List.prefix_iff_eq_take.mp inRun,
              ← List.prefix_iff_eq_take.mp inFront]

theorem next?_eq (hStands : scanner.StandsIn source) :
    next? table source scanner.offset =
      some ((scanner.next table).1, (scanner.next table).2.offset) := by
  have whole := List.takeWhile_append_dropWhile (p := isGap) (l := scanner.remaining)
  have atLexeme := hStands.skip whole.symm
  have size := atLexeme.size_eq
  rw [next?, remainder?, hStands.slice_remaining, Option.bind_eq_bind, Option.bind_some]
  cases hEnd : (scanner.next table).1.isEnd with
  | true =>
      have nothing := Scanner.isEnd_next_iff.mp hEnd
      rw [nothing, List.append_nil] at whole
      rw [nothing, Text.byteLength_nil, Nat.add_zero] at size
      rw [if_pos (Nat.le_of_eq size), Scanner.offset_next, (Scanner.text_next_of_isEnd hEnd).2,
        whole]
      rfl
  | false =>
      have something := Scanner.dropWhile_ne_nil hEnd
      have before : ¬source.utf8ByteSize ≤
          scanner.offset + byteLength (scanner.remaining.takeWhile isGap) := by
        have wide := Text.byteLength_pos something
        simp only at size
        omega
      have measured := @measure?_eq table _ something
        (Lexeme.head?_any_dropWhile isGap scanner.remaining)
      have lexeme := Lexeme.read_append table (scanner.remaining.dropWhile isGap)
      have cut := Text.slice?_append [] (Lexeme.read table
        (scanner.remaining.dropWhile isGap)).characters
        (Lexeme.read table (scanner.remaining.dropWhile isGap)).rest
      rw [List.nil_append, lexeme, Text.byteLength_nil, Nat.zero_add] at cut
      have ahead : slice? source.toList
          (scanner.offset + byteLength (scanner.remaining.takeWhile isGap)) source.utf8ByteSize =
            some (scanner.remaining.dropWhile isGap) := atLexeme.slice_remaining
      simp only [if_neg before, remainder?, ahead, Option.bind_eq_bind, Option.bind_some,
        measured, cut]
      rfl

/-- There are at most as many tokens in front of the end as there are characters. -/
theorem tokensFrom?_eq (hStands : scanner.StandsIn source) {steps : Nat}
    (hSteps : scanner.remaining.length < steps) :
    tokensFrom? table source steps scanner.offset = some (scanner.drain table).1 := by
  induction scanner using Scanner.next_induction table generalizing steps with
  | atEnd scanner hEnd =>
      cases steps with
      | zero => contradiction
      | succ steps =>
          rw [tokensFrom?, next?_eq hStands, Scanner.drain_of_isEnd hEnd]
          simp only [Option.bind_eq_bind, Option.bind_some, hEnd, if_true]
          rfl
  | inFront scanner hToken ih =>
      cases steps with
      | zero => contradiction
      | succ steps =>
          have shorter := scanner.next_remaining_length_lt table hToken
          have behind := @ih hStands.next steps (by omega)
          rw [tokensFrom?, next?_eq hStands, Scanner.drain_of_not_isEnd hToken]
          simp only [Option.bind_eq_bind, Option.bind_some, hToken, Bool.false_eq_true, if_false,
            behind]
          rfl

theorem tokenize?_eq (table : PrecedenceTable) (source : String) :
    tokenize? table source = some (tokenize table source) :=
  tokensFrom?_eq (Scanner.standsIn_start source) (Nat.lt_succ_of_le (Text.length_toList_le source))

/-! ### The body of a quoted token -/

theorem isTerminated?_of_concat {token : Token} {inner : List Char} {last : Char}
    (hKind : token.kind = .quoted) (hText : token.text.toList = '"' :: (inner ++ [last])) :
    isTerminated? token = some token.isTerminated := by
  have size : token.text.utf8ByteSize = 1 + byteLength inner + last.utf8Size := by
    rw [← Text.byteLength_toList, hText, Text.byteLength_cons, Text.byteLength_append,
      ← Nat.add_assoc]
    rfl
  have long : ¬token.text.utf8ByteSize < 2 := by
    have wide := last.utf8Size_pos
    omega
  have atEnd : token.text.toList.getLast? = some last := by
    rw [hText, ← List.cons_append, List.getLast?_concat]
  have ending : token.isTerminated =
      if last = '"' then (inner.reverse.takeWhile (· == '\\')).length % 2 == 0 else false := by
    rw [Token.isTerminated, hKind, hText, Token.endsInQuote, List.reverse_concat]
    split
    · rename_i hBackwards
      rw [(List.cons.inj hBackwards).1, (List.cons.inj hBackwards).2]
      rfl
    · rename_i hOther
      rw [if_neg (fun hLast => hOther inner.reverse (by rw [hLast]))]
      rfl
  by_cases hLast : last = '"'
  · have cut := Text.slice?_append ['"'] inner [last]
    have stop : byteLength ['"'] + byteLength inner = token.text.utf8ByteSize - 1 := by
      rw [size, hLast]
      rfl
    rw [stop, List.singleton_append, ← hText] at cut
    have body : slice? token.text.toList 1 (token.text.utf8ByteSize - 1) = some inner := cut
    rw [ending, if_pos hLast, isTerminated?, atEnd, hLast, body]
    simp [hKind, long]
  · rw [ending, if_neg hLast, isTerminated?, atEnd]
    simp [hLast]

/-- A quoted token begins with a quote, so what is cut off at its ends are whole characters. -/
theorem isTerminated?_eq {token : Token}
    (hText : token.kind = .quoted → ∃ body, token.text.toList = '"' :: body) :
    isTerminated? token = some token.isTerminated := by
  by_cases hKind : token.kind = .quoted
  · rcases hText hKind with ⟨body, hBody⟩
    rcases List.eq_nil_or_concat body with rfl | ⟨inner, last, hConcat⟩
    · have size : token.text.utf8ByteSize = 1 := by
        rw [← Text.byteLength_toList, hBody]
        rfl
      simp [isTerminated?, Token.isTerminated, hBody, size, Token.endsInQuote]
    · rw [hConcat, List.concat_eq_append] at hBody
      exact isTerminated?_of_concat hKind hBody
  · simp [isTerminated?, Token.isTerminated, hKind]

theorem isTerminated?_of_mem {token : Token} (member : token ∈ tokenize table source) :
    isTerminated? token = some token.isTerminated :=
  isTerminated?_eq (Token.exists_body_of_quoted member)

/-- A token that no scan finds may be cut in two. -/
example : isTerminated? ⟨.quoted, "é\"", ⟨0, 3⟩⟩ = none := by
  decide +kernel

end Sliced
end OperatorCalculator
