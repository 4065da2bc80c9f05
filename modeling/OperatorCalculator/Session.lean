import OperatorCalculator.Fault.Report
import OperatorCalculator.Trace

/-
Sessions.

A session prompts for a line, answers it, and prompts again until the input ends.
What a session does is a list of acts that depends on nothing but the settings, the
bytes of the input, and who listens.  Performing the acts on an output of limited room
writes as much as fits and stops there.
-/

set_option autoImplicit false

namespace OperatorCalculator

structure Settings where
  /-- Written before every line is read. -/
  prompt : String := "> "
  /-- Refuse malformed expressions with a report. -/
  strict : Bool := false
  /-- Leave an event behind for every step of an evaluation. -/
  trace : Bool := false
  table : PrecedenceTable := .standard

namespace Settings

def answerLeniently (settings : Settings) (listener : Listener) (line : String) :
    Recorder Value String :=
  if settings.trace then do
    let value ← evaluateTraced Value.interpretation listener settings.table line
    renderTraced listener Value.render value
  else do
    let value ← evaluateQuietly Value.interpretation listener settings.table line
    return value.render

/-- The text to print for an expression: its value, or the report on its first fault
under strict settings.  A fault of the shape always has a report. -/
def answer (settings : Settings) (listener : Listener) (line : String) :
    Recorder Value String :=
  match if settings.strict then shapeFault? settings.table line else none with
  | some fault => return (fault.report? line).getD fault.message
  | none => settings.answerLeniently listener line

end Settings

/-! ### What a session does -/

inductive Act where
  /-- Text goes to the output. -/
  | write (text : String)
  /-- An event is left behind. -/
  | note (event : Event Value)
  /-- The input is no text; the session cannot go on. -/
  | giveUp

namespace Session

/-- Cuts bytes behind each newline byte.  What is left without one is a line too. -/
def splitLines : List UInt8 → List (List UInt8)
  | [] => []
  | byte :: rest =>
      if byte = 10 then
        [byte] :: splitLines rest
      else
        match splitLines rest with
        | [] => [[byte]]
        | line :: lines => (byte :: line) :: lines

def dropLast (character : Char) (characters : List Char) : List Char :=
  if characters.getLast? = some character then characters.dropLast else characters

/-- The expression on a line: the line without one newline at its end, and then without
one carriage return. -/
def expressionOf (line : String) : String :=
  String.ofList (dropLast '\r' (dropLast '\n' line.toList))

def announceAndAnswer (settings : Settings) (listener : Listener) (expression : String) :
    Recorder Value String := do
  record listener (.evaluating expression)
  settings.answer listener expression

/-- The acts that answer one line.  A blank line is passed over. -/
def turn (settings : Settings) (listener : Listener) (line : String) : List Act :=
  let expression := expressionOf line
  if Text.isAllBlank expression.toList then
    []
  else
    let (text, events) := (announceAndAnswer settings listener expression).run #[]
    events.toList.map .note ++ [.write (text ++ "\n")]

/-- The acts that answer a line of bytes.  Bytes that encode no text end the session. -/
def respond (settings : Settings) (listener : Listener) (line : ByteArray) : List Act :=
  match String.fromUTF8? line with
  | some text => turn settings listener text
  | none => [.giveUp]

/-- The acts that answer lines of bytes, each after a prompt, with a prompt at the end. -/
def script (settings : Settings) (listener : Listener) : List (List UInt8) → List Act
  | [] => [.write settings.prompt]
  | line :: lines =>
      .write settings.prompt ::
        respond settings listener line.toByteArray ++ script settings listener lines

end Session

/-! ### What comes of it -/

inductive Ending where
  | finished
  | invalidInput
  | outputFull
  deriving DecidableEq

def Ending.exitCode : Ending → Nat
  | .finished => 0
  | .invalidInput | .outputFull => 1

structure Transcript where
  output : ByteArray
  events : Array (Event Value)
  ending : Ending

/-- Performs acts after what is already in a transcript, on an output that has room for
`room` more bytes, or for any number.  A text that does not fit is cut off. -/
def Transcript.perform (room : Option Nat) (transcript : Transcript) :
    List Act → Transcript
  | [] => transcript
  | .note event :: acts =>
      perform room { transcript with events := transcript.events.push event } acts
  | .giveUp :: _ => { transcript with ending := .invalidInput }
  | .write text :: acts =>
      let bytes := text.toUTF8
      match room with
      | none =>
          perform none { transcript with output := transcript.output ++ bytes } acts
      | some room =>
          if bytes.size ≤ room then
            perform (some (room - bytes.size))
              { transcript with output := transcript.output ++ bytes } acts
          else
            { transcript with
              output := transcript.output ++ bytes.extract 0 room
              ending := .outputFull }

def Session.run (settings : Settings) (listener : Listener) (room : Option Nat)
    (input : List UInt8) : Transcript :=
  Transcript.perform room ⟨.empty, #[], .finished⟩
    (script settings listener (splitLines input))

end OperatorCalculator
