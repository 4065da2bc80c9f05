import OperatorCalculator.Main
import OperatorCalculator.Evaluation.Grouping
import OperatorCalculator.Proofs.Evaluation.Alternation
import OperatorCalculator.Proofs.Evaluation.Binding
import OperatorCalculator.Proofs.Evaluation.Expression
import OperatorCalculator.Proofs.Evaluation.Calls
import OperatorCalculator.Proofs.Evaluation.Shape
import OperatorCalculator.Proofs.Token.Feed
import OperatorCalculator.Proofs.Token.Lexeme
import OperatorCalculator.Proofs.Evaluation.Literals
import OperatorCalculator.Proofs.Value.Printed
import OperatorCalculator.Proofs.Evaluation.Traced
import OperatorCalculator.Proofs.Evaluation.FirstFailure
import OperatorCalculator.Proofs.Session.Tracing
import OperatorCalculator.Proofs.PrecedenceTable.Alike
import OperatorCalculator.Proofs.Token.Alike
import OperatorCalculator.Proofs.Evaluation.Alike
import OperatorCalculator.Proofs.Value.Kind
import OperatorCalculator.Proofs.Evaluation.Span
import OperatorCalculator.Proofs.Evaluation.PostOrder
import OperatorCalculator.Proofs.Evaluation.Kinds
import OperatorCalculator.Proofs.Evaluation.Grammar
import OperatorCalculator.Proofs.Session.Lines
import OperatorCalculator.Proofs.Session.Transcript
import OperatorCalculator.Proofs.Session.Room
import OperatorCalculator.Proofs.Evaluation.Agreement
import OperatorCalculator.Proofs.Token.Truncated
import OperatorCalculator.Proofs.Token.Boundary
import OperatorCalculator.Proofs.Evaluation.Truncated
import OperatorCalculator.Proofs.Sliced.Answer
import OperatorCalculator.Proofs.Token.Spacing
import OperatorCalculator.Proofs.Evaluation.Spacing
import OperatorCalculator.Proofs.Session.Events
import OperatorCalculator.Proofs.Session.Framing
import OperatorCalculator.Proofs.PrecedenceTable.Entry
import OperatorCalculator.Proofs.PrecedenceTable.History
import OperatorCalculator.Proofs.Text.Items
import OperatorCalculator.Proofs.Evaluation.Usable
import OperatorCalculator.Proofs.CommandLine.Arguments
import OperatorCalculator.Proofs.CommandLine.FrontEnds
import OperatorCalculator.Proofs.Value.Arithmetic
import OperatorCalculator.Proofs.Token.Neighbours
import OperatorCalculator.Proofs.Token.Closing
import OperatorCalculator.Proofs.Evaluation.QuotedLiterals
import OperatorCalculator.Proofs.Token.Maximal
import OperatorCalculator.Proofs.Value.Repetition
import OperatorCalculator.Proofs.Value.Comparison
import OperatorCalculator.Proofs.Value.Classes
import OperatorCalculator.Proofs.Fault.Caret
import OperatorCalculator.Proofs.Evaluation.Descent
import OperatorCalculator.Proofs.Evaluation.Nesting
import OperatorCalculator.Proofs.Evaluation.Walk
