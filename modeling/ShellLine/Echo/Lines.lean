import ShellLine.Echo.Input
import ShellLine.Echo.Options
import ShellLine.Echo.Report
import ShellLine.Grammar.Program
import ShellLine.Json.Program
import ShellLine.Json.Token
import ShellLine.Program.Render

/-!
# Echoed lines

What options ask to echo is one given line, or the lines of a file or of the
standard input that are not blank. A line that is no program does not end the
matter, but input that cannot be read does.
-/

namespace ShellLine.Echo

/-! ## One line -/

/-- The tokens of a line, as text or as JSON. -/
def showTokens (json : Bool) (tokens : List Token) : String :=
  if json then (Json.array (tokens.map Token.toJson)).compact
  else String.ofList (Text.joinThen [',', ' '] (tokens.map Token.display) [])

/-- A program, as text or as JSON. -/
def showProgram (json : Bool) (program : Program) : String :=
  if json then program.toJson.compact else program.render

def echoLine (format : Format) (line : String) : Report :=
  if format.tokens then .accepted (showTokens format.json (tokenize line))
  else
    match parse line with
    | .ok program => .accepted (showProgram format.json program)
    | .error e => .rejected e.message

/-! ## All lines of an input -/

/-- Why an input cannot be read. -/
inductive InputError where
  | notFound
  | isDirectory
  | notText
  | other (message : String)
  deriving DecidableEq

def InputError.message : InputError → String
  | .notFound => "No such file or directory (os error 2)"
  | .isDirectory => "Is a directory (os error 21)"
  | .notText => "stream did not contain valid UTF-8"
  | .other message => message

/-- A report for each line that is not blank, up to the first line that is no text. -/
def lineReports (format : Format) : List RawLine → List Report
  | [] => []
  | raw :: rest =>
    match raw.text? with
    | none => [.failed InputError.notText.message]
    | some line =>
      if Text.allBlank line then lineReports format rest
      else echoLine format line :: lineReports format rest

/-- The whole of an input. -/
def echoInput (format : Format) : Except InputError (List UInt8) → Report
  | .ok input => .concat (lineReports format (rawLines input))
  | .error e => .failed e.message

/-! ## What options ask for -/

/-- The run that options ask for. Input is read from a file, or else from the standard input, and
only when no line is given. -/
def Options.run {m : Type → Type} [Monad m]
    (read : Option String → m (Except InputError (List UInt8))) (options : Options) :
    m Report :=
  match options.line with
  | some line => pure (echoLine options.format line)
  | none => do
    let input ← read options.file
    pure (echoInput options.format input)

end ShellLine.Echo
