import StackScript.Builtin.Apply
import StackScript.CommandLine.Run
import StackScript.Main
import StackScript.Report
import StackScript.Value.Equality
import StackScript.Proofs.Core.Basic
import StackScript.Proofs.Core.Resolve
import StackScript.Proofs.Core.Eval
import StackScript.Proofs.Code.Stream
import StackScript.Proofs.Core.Generate
import StackScript.Proofs.Assembly.Emission
import StackScript.Proofs.Assembly.Ending
import StackScript.Proofs.Core.Compositional
import StackScript.Proofs.Program.Compositional
import StackScript.Proofs.Assembly.Generation
import StackScript.Proofs.Assembly.WellFormed
import StackScript.Proofs.Session.Safety
import StackScript.Proofs.Machine.Bounds
import StackScript.Proofs.Machine.Limits
import StackScript.Proofs.Session.Turns
import StackScript.Proofs.Session.Rejection
import StackScript.Proofs.Code.Encoding
import StackScript.Proofs.Assembly.Slots
import StackScript.Proofs.Core.Discard
import StackScript.Proofs.Session.Result
import StackScript.Proofs.Program.Spelling
import StackScript.Proofs.Program.Reading
import StackScript.Proofs.Program.RoundTrip
import StackScript.Proofs.Scope.Chain
import StackScript.Proofs.Session.Activations
import StackScript.Proofs.Session.Locals
import StackScript.Proofs.Program.Literal
import StackScript.Proofs.Session.Literals
import StackScript.Proofs.Program.Spacing
import StackScript.Proofs.Program.Precedence
import StackScript.Proofs.Program.Form
import StackScript.Proofs.Program.Prompt
import StackScript.Proofs.Program.Completion
import StackScript.Proofs.Program.Offense
import StackScript.Proofs.Console.Brackets
import StackScript.Proofs.Value.Printing
import StackScript.Proofs.Session.HashLiteral
import StackScript.Proofs.Program.Nesting
import StackScript.Proofs.Console.Continuation
import StackScript.Proofs.Console.Completion
import StackScript.Proofs.Console.Highlighting
import StackScript.Proofs.Assembly.Bookkeeping
import StackScript.Proofs.Program.Descent
import StackScript.Proofs.Program.Progress
