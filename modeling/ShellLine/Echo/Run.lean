import ShellLine.Echo.Arguments
import ShellLine.Echo.Lines

/-!
# Runs

A run shows a help text or the version, or echoes what its arguments ask for.
-/

namespace ShellLine.Echo

def helpText : String :=
  "Parse shell command lines and echo their syntax tree\n" ++
  "\n" ++
  "Usage: arosh [OPTIONS] [FILE]\n" ++
  "\n" ++
  "Arguments:\n" ++
  "  [FILE]  File whose lines are parsed one at a time (default: stdin)\n" ++
  "\n" ++
  "Options:\n" ++
  "  -c <COMMAND>   Parse the command line given as argument\n" ++
  "      --tokens   Print the token stream instead of the syntax tree\n" ++
  "      --json     Output tokens or trees as JSON, one document per line\n" ++
  "  -h, --help     Print help\n" ++
  "  -V, --version  Print version\n"

def versionText : String := "arosh 0.1.0\n"

/-- Misused arguments. What is written about them is not modelled: a fixed text stands in its place,
and only the status says something. -/
def Report.misused : Report := ⟨"", "<usage error>", .failed⟩

/-- The run that arguments ask for. -/
def run {m : Type → Type} [Monad m]
    (read : Option String → m (Except InputError (List UInt8))) (arguments : List String) :
    m Report :=
  match Invocation.ofArguments? arguments with
  | none => pure .misused
  | some .help => pure ⟨helpText, "", .success⟩
  | some .version => pure ⟨versionText, "", .success⟩
  | some (.echo options) => options.run read

end ShellLine.Echo
