import FrontEnd.Literal.Basic
import FrontEnd.Main
import FrontEnd.Recognizer.Script
import FrontEnd.Proofs.Recognizer.Acceptance
import FrontEnd.Proofs.Scan.RoundTrip
import FrontEnd.Proofs.Infix.Postorder
import FrontEnd.Proofs.Recognizer.Rejection
import FrontEnd.Proofs.Scan.Course
import FrontEnd.Proofs.Scan.Concatenation
import FrontEnd.Proofs.Infix.Expression
import FrontEnd.Proofs.Infix.Course
import FrontEnd.Proofs.AtEach
import FrontEnd.Proofs.Infix.Nesting
import FrontEnd.Proofs.Infix.Evaluable
import FrontEnd.Proofs.Scan.Separators
import FrontEnd.Proofs.Recognizer.Session
import FrontEnd.Proofs.Recognizer.Recoverable
import FrontEnd.Proofs.Check.Concatenation
import FrontEnd.Proofs.Infix.Parentheses
import FrontEnd.Proofs.Recognizer.Finality
import FrontEnd.Proofs.Recognizer.Resemblance
import FrontEnd.Proofs.Scan.Requests
import FrontEnd.Proofs.Scan.Truncation
import FrontEnd.Proofs.Infix.Conservation
import FrontEnd.Proofs.Infix.Groups
import FrontEnd.Proofs.Scan.Location
import FrontEnd.Proofs.Recognizer.Path
import FrontEnd.Proofs.Literal.Numeral
import FrontEnd.Proofs.CommandLine.Listing
import FrontEnd.Proofs.Recognizer.Tracking
import FrontEnd.Proofs.Recognizer.Headers
import FrontEnd.Proofs.CommandLine.Options
import FrontEnd.Proofs.CommandLine.Operands
import FrontEnd.Proofs.Recognizer.Outline
import FrontEnd.Proofs.Recognizer.Verbosity
import FrontEnd.Proofs.Recognizer.Progress
import FrontEnd.Proofs.Infix.Layers
