import OperatorCalculator.PrecedenceTable.Entry
import OperatorCalculator.Session

/-
The command line.

Arguments are options, read from left to right.  An option with a value takes it from
behind an equals sign, from the rest of a group of short options, or from the next
argument, which must not look like an option itself.  Expressions are evaluated in
order; without any, there is a session.
-/

set_option autoImplicit false

namespace OperatorCalculator
namespace CommandLine

/-! ### Options in one argument -/

inductive OptionName where
  | expression
  | trace
  | strict
  | precedence
  | prompt
  | help
  | version
  deriving DecidableEq

namespace OptionName

def takesValue : OptionName → Bool
  | .expression | .precedence | .prompt => true
  | .trace | .strict | .help | .version => false

def spelling : OptionName → String
  | .expression => "--expr"
  | .trace => "--trace"
  | .strict => "--strict"
  | .precedence => "--precedence"
  | .prompt => "--prompt"
  | .help => "--help"
  | .version => "--version"

def ofLong? (characters : List Char) : Option OptionName :=
  [OptionName.expression, .trace, .strict, .precedence, .prompt, .help, .version].find?
    fun name => name.spelling.toList == '-' :: '-' :: characters

def ofShort? : Char → Option OptionName
  | 'e' => some .expression
  | 'p' => some .precedence
  | 'h' => some .help
  | 'V' => some .version
  | _ => none

end OptionName

inductive Item where
  /-- An option that takes no value is set. -/
  | set (name : OptionName)
  /-- An option is given a value. -/
  | give (name : OptionName) (value : String)
  /-- An option waits for the next argument to be its value. -/
  | await (name : OptionName)
  /-- An option that takes no value is given one. -/
  | overload (name : OptionName)
  /-- Only arguments that are no options may follow. -/
  | endOfOptions
  /-- The argument is no option that is known. -/
  | unknown

def shortItems : List Char → List Item
  | [] => []
  | character :: rest =>
      match OptionName.ofShort? character with
      | none => [.unknown]
      | some name =>
          if name.takesValue then
            match rest with
            | [] => [.await name]
            | '=' :: value => [.give name (String.ofList value)]
            | value => [.give name (String.ofList value)]
          else
            .set name :: shortItems rest

def longItem (characters : List Char) : Item :=
  match OptionName.ofLong? (characters.takeWhile (· != '=')),
      characters.dropWhile (· != '=') with
  | none, _ => .unknown
  | some name, [] => if name.takesValue then .await name else .set name
  | some name, _ :: value =>
      if name.takesValue then .give name (String.ofList value) else .overload name

/-- What an argument says where an option may stand. -/
def itemsOf (argument : String) : List Item :=
  match argument.toList with
  | ['-', '-'] => [.endOfOptions]
  | '-' :: '-' :: long => [longItem long]
  | '-' :: first :: others => shortItems (first :: others)
  | _ => [.unknown]

/-- The argument looks like an option, so that it is not taken for a value. -/
def looksLikeOption (argument : String) : Bool :=
  match argument.toList with
  | '-' :: _ :: _ => true
  | _ => false

/-! ### All arguments -/

inductive Stop where
  | unexpectedArgument (argument : String)
  | missingValue (name : OptionName)
  | unexpectedValue (name : OptionName)
  | repeatedOption (name : OptionName)
  | invalidEntry (fault : Fault)
  | help
  | version
  deriving DecidableEq

structure Choices where
  expressions : List String := []
  levels : List (String × Level) := []
  prompt? : Option String := none
  trace : Bool := false
  strict : Bool := false

/-- Sets an option that takes no value.  None of them may be set twice, and two of them
end the reading at once. -/
def Choices.set (choices : Choices) (name : OptionName) : Except Stop Choices :=
  match name with
  | .help => .error .help
  | .version => .error .version
  | .trace =>
      if choices.trace then .error (.repeatedOption name)
      else .ok { choices with trace := true }
  | .strict =>
      if choices.strict then .error (.repeatedOption name)
      else .ok { choices with strict := true }
  | .expression | .precedence | .prompt => .error (.missingValue name)

/-- Gives an option a value.  Expressions and entries add up; the prompt may be given
only once. -/
def Choices.give (choices : Choices) (name : OptionName) (value : String) :
    Except Stop Choices :=
  match name with
  | .expression => .ok { choices with expressions := choices.expressions ++ [value] }
  | .precedence =>
      match PrecedenceTable.parseEntry value with
      | .ok entry => .ok { choices with levels := choices.levels ++ [entry] }
      | .error fault => .error (.invalidEntry fault)
  | .prompt =>
      if choices.prompt?.isSome then .error (.repeatedOption name)
      else .ok { choices with prompt? := some value }
  | .trace | .strict | .help | .version => .error (.unexpectedValue name)

/-- Takes in what an argument says in front of the arguments `rest`, and returns what is
left of these. -/
def Choices.takeItems (argument : String) (rest : List String) (choices : Choices) :
    List Item → Except Stop (Choices × List String)
  | [] => .ok (choices, rest)
  | .set name :: items => do takeItems argument rest (← choices.set name) items
  | .give name value :: items => do
      takeItems argument rest (← choices.give name value) items
  | .await name :: _ =>
      match rest with
      | [] => .error (.missingValue name)
      | value :: rest =>
          if looksLikeOption value then .error (.missingValue name)
          else do return (← choices.give name value, rest)
  | .overload name :: _ => .error (.unexpectedValue name)
  | .endOfOptions :: _ =>
      match rest with
      | [] => .ok (choices, [])
      | positional :: _ => .error (.unexpectedArgument positional)
  | .unknown :: _ => .error (.unexpectedArgument argument)

theorem Choices.takeItems_length {argument : String} {rest left : List String}
    {choices taken : Choices} {items : List Item}
    (hTaken : choices.takeItems argument rest items = .ok (taken, left)) :
    left.length ≤ rest.length := by
  fun_induction Choices.takeItems argument rest choices items with
  | case1 choices =>
      simp only [Except.ok.injEq, Prod.mk.injEq] at hTaken
      simp [hTaken.2]
  | case2 choices name items ih =>
      cases hSet : choices.set name with
      | error stop => simp [hSet, bind, Except.bind] at hTaken
      | ok set => exact ih set (by simpa [hSet, bind, Except.bind] using hTaken)
  | case3 choices name value items ih =>
      cases hGive : choices.give name value with
      | error stop => simp [hGive, bind, Except.bind] at hTaken
      | ok given => exact ih given (by simpa [hGive, bind, Except.bind] using hTaken)
  | case4 => simp at hTaken
  | case5 => simp at hTaken
  | case6 choices name items value following hRest plain =>
      cases hGive : choices.give name value with
      | error stop => simp [hGive, bind, Except.bind] at hTaken
      | ok given =>
          simp only [hGive, bind, Except.bind, pure, Except.pure, Except.ok.injEq,
            Prod.mk.injEq] at hTaken
          obtain ⟨_, rfl⟩ := hTaken
          rw [hRest, List.length_cons]
          omega
  | case7 => simp at hTaken
  | case8 choices items =>
      simp only [Except.ok.injEq, Prod.mk.injEq] at hTaken
      simp [← hTaken.2]
  | case9 => simp at hTaken
  | case10 => simp at hTaken

def Choices.takeArguments (choices : Choices) (arguments : List String) :
    Except Stop Choices :=
  match arguments with
  | [] => .ok choices
  | argument :: rest =>
      match _hTaken : choices.takeItems argument rest (itemsOf argument) with
      | .error stop => .error stop
      | .ok (taken, left) => taken.takeArguments left
termination_by arguments.length
decreasing_by
  have shorter := Choices.takeItems_length _hTaken
  simp only [List.length_cons]
  omega

def Choices.settings (choices : Choices) : Settings where
  prompt := choices.prompt?.getD "> "
  strict := choices.strict
  trace := choices.trace
  table :=
    choices.levels.foldl (fun table (operator, level) => table.assign operator (some level))
      .standard

inductive Request where
  | evaluate (settings : Settings) (expressions : List String)
  | converse (settings : Settings)

def request (arguments : List String) : Except Stop Request := do
  let choices ← ({} : Choices).takeArguments arguments
  if choices.expressions.isEmpty then
    return .converse choices.settings
  else
    return .evaluate choices.settings choices.expressions

/-! ### What comes of it -/

def helpText : String :=
  "Evaluates infix expressions over integers, booleans and strings\n\n" ++
  "Usage: infix [OPTIONS]\n\n" ++
  "Options:\n" ++
  "  -e, --expr <EXPR>        Evaluate this expression and exit. May be given more than once\n" ++
  "      --trace              Log every literal and operation to stderr\n" ++
  "      --strict             Reject malformed expressions instead of evaluating them\n" ++
  "  -p, --precedence <OP=N>  Add or override an operator precedence, e.g. `-p '**=6'`\n" ++
  "      --prompt <PROMPT>    Prompt shown before each line in interactive mode [default: \"> \"]\n" ++
  "  -h, --help               Print help\n" ++
  "  -V, --version            Print version\n"

namespace Stop

def output : Stop → String
  | .help => helpText
  | .version => "infix 0.1.0\n"
  | _ => ""

def complaint? : Stop → Option String
  | .help | .version => none
  | .unexpectedArgument argument => some ("unexpected argument '" ++ argument ++ "' found")
  | .missingValue name => some ("a value is required for '" ++ name.spelling ++ "'")
  | .unexpectedValue name => some ("no value is taken by '" ++ name.spelling ++ "'")
  | .repeatedOption name =>
      some ("the argument '" ++ name.spelling ++ "' cannot be used multiple times")
  | .invalidEntry fault => some fault.message

/-- Zero if the arguments were in order, and two otherwise. -/
def exitCode (stop : Stop) : Nat :=
  if stop.complaint?.isSome then 2 else 0

end Stop

structure Outcome where
  exitCode : Nat
  output : ByteArray
  log : List String

/-- The log tells of operands, if they are to be traced, and of nothing else. -/
def listener (settings : Settings) : Listener :=
  fun channel => settings.trace && channel == .operands

def logLines (events : List (Event Value)) : List String :=
  events.map Event.logLine

/-- The answers to expressions, one to a line, and the events they leave behind. -/
def answerAll (settings : Settings) : List String → Recorder Value String
  | [] => return ""
  | expression :: expressions => do
      let first ← settings.answer (listener settings) expression
      let others ← answerAll settings expressions
      return first ++ "\n" ++ others

def run (arguments : List String) (input : List UInt8) : Outcome :=
  match request arguments with
  | .error stop => ⟨stop.exitCode, stop.output.toUTF8, []⟩
  | .ok (.evaluate settings expressions) =>
      let (text, events) := (answerAll settings expressions).run #[]
      ⟨0, text.toUTF8, logLines events.toList⟩
  | .ok (.converse settings) =>
      let transcript := Session.run settings (listener settings) none input
      ⟨transcript.ending.exitCode, transcript.output, logLines transcript.events.toList⟩

end CommandLine
end OperatorCalculator
