import ShellLine.Echo.Run

/-!
# The program

Reads the files and the standard input that a run asks for, writes what the run
reports and exits with its code.
-/

namespace ShellLine.Echo

def readFailure : IO.Error → InputError
  | .noFileOrDirectory .. => .notFound
  | .inappropriateType .. => .isDirectory
  | e => .other (toString e)

/-- The bytes of a file, or of the standard input when no file is given. -/
def readInput (file : Option String) : IO (Except InputError (List UInt8)) := do
  try
    match file with
    | some path => pure (.ok (← IO.FS.readBinFile path).toList)
    | none => pure (.ok (← (← IO.getStdin).readBinToEnd).toList)
  catch e => pure (.error (readFailure e))

end ShellLine.Echo

def main (arguments : List String) : IO UInt32 := do
  let report ← ShellLine.Echo.run ShellLine.Echo.readInput arguments
  IO.print report.stdout
  IO.eprint report.stderr
  pure report.status.code.toUInt32
