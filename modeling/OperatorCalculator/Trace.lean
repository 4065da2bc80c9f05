import OperatorCalculator.Evaluation.Strict
import OperatorCalculator.Value.Literal
import OperatorCalculator.Value.Operation

/-
Traces.

A trace is the list of events of a run, in the order they happen: every operand that
is made, every operator that is applied, every value that is printed, and where
lines and evaluations begin.  Whether an event is left behind depends on who listens;
an operator that is applied while nobody listens takes a shorter way.  Tracing changes
no result.
-/

set_option autoImplicit false

namespace OperatorCalculator

/-! ### Events -/

inductive Event (V : Type) where
  | entered (source : String)
  /-- A line of a session is about to be answered. -/
  | evaluating (expression : String)
  | literal (token : String) (value : V)
  | applied (left : V) (operator : String) (right result : V)
  | rendered (value : V) (text : String)

inductive Channel where
  | evaluations
  | lines
  | operands
  deriving DecidableEq

namespace Event

variable {V : Type}

def channel : Event V → Channel
  | .entered _ => .evaluations
  | .evaluating _ => .lines
  | .literal .. | .applied .. | .rendered .. => .operands

def message (describe : V → String) : Event V → String
  | .entered source => source
  | .evaluating _ => "evaluating"
  | .literal token value =>
      "parse_literal(" ++ Text.quote token ++ ") = " ++ describe value
  | .applied left operator right result =>
      describe left ++ ".apply(" ++ Text.quote operator ++ ", " ++ describe right ++
        ") = " ++ describe result
  | .rendered value text =>
      describe value ++ ".render() = " ++ Text.quote text

end Event

/-! ### Listeners -/

abbrev Listener := Channel → Bool

inductive Verbosity where
  | info | debug | trace
  deriving DecidableEq

namespace Listener

def everything : Listener := fun _ => true

/-- The beginnings of evaluations are heard only at the highest verbosity, everything
else from the middle one on.  Without a verbosity nobody listens. -/
def ofVerbosity? : Option Verbosity → Listener
  | none | some .info => fun _ => false
  | some .debug => fun channel => channel != .evaluations
  | some .trace => everything

end Listener

/-! ### Recording -/

abbrev Recorder (V : Type) := StateM (Array (Event V))

/-- Leaves an event behind if someone listens to its channel. -/
def record {V : Type} (listener : Listener) (event : Event V) : Recorder V PUnit :=
  if listener event.channel then modify (·.push event) else pure ⟨⟩

def Interpretation.traced {V : Type} (interpretation : PureInterpretation V)
    (listener : Listener) : Interpretation (Recorder V) V where
  literal token := do
    let value := interpretation.literal token
    record listener (.literal token value)
    return value
  apply left operator right :=
    if listener .operands then do
      let result := interpretation.apply left operator right
      record listener (.applied left operator right result)
      return result
    else
      return interpretation.apply left operator right

def renderTraced {V : Type} (listener : Listener) (render : V → String) (value : V) :
    Recorder V String := do
  let text := render value
  record listener (.rendered value text)
  return text

def evaluateTraced {V : Type} (interpretation : PureInterpretation V)
    (listener : Listener) (table : PrecedenceTable) (source : String) : Recorder V V := do
  record listener (.entered source)
  evaluate (interpretation.traced listener) table source

def evaluateQuietly {V : Type} (interpretation : PureInterpretation V)
    (listener : Listener) (table : PrecedenceTable) (source : String) : Recorder V V := do
  record listener (.entered source)
  return evaluate interpretation table source

/-! ### Values -/

def Value.interpretation : PureInterpretation Value where
  literal token := Value.ofLiteral token
  apply left operator right := left.apply operator right

/-- The line of a log for an event about an operand. -/
def Event.logLine (event : Event Value) : String :=
  "DEBUG infix::trace: " ++ event.message Value.describe

end OperatorCalculator
