import ShellLine.Main
import ShellLine.Token.Pull
import ShellLine.Proofs.Grammar.Scan
import ShellLine.Proofs.Grammar.ErrorPlace
import ShellLine.Proofs.Grammar.CorrectPrefix
import ShellLine.Proofs.Grammar.LastOperator
import ShellLine.Proofs.Program.Rendering
import ShellLine.Proofs.Program.RoundTrip
import ShellLine.Proofs.Grammar.Layout
import ShellLine.Proofs.Grammar.Join
import ShellLine.Proofs.Echo.LineByLine
import ShellLine.Proofs.Token.Concatenation
import ShellLine.Proofs.Json.Reader
import ShellLine.Proofs.Token.Counting
import ShellLine.Proofs.Json.Written
import ShellLine.Proofs.Json.Decoding
import ShellLine.Proofs.Grammar.Message
import ShellLine.Proofs.Program.Spacing
import ShellLine.Proofs.Echo.Framing
import ShellLine.Proofs.Text.Lines
import ShellLine.Proofs.Token.Number
import ShellLine.Proofs.Grammar.Attached
import ShellLine.Proofs.Program.SameProgram
import ShellLine.Proofs.Token.Consuming
import ShellLine.Proofs.Program.Plain
import ShellLine.Proofs.Echo.TokenList
import ShellLine.Proofs.Grammar.Progress
import ShellLine.Proofs.Echo.Arguments
import ShellLine.Proofs.Echo.Arguments
