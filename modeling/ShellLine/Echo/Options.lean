/-!
# Options

What a run is asked to echo, and how.
-/

namespace ShellLine.Echo

/-- What is written for a line: its tokens or its program, as text or as JSON. -/
structure Format where
  tokens : Bool := false
  json : Bool := false
  deriving DecidableEq

/-- What to echo: a line that is given, or else the lines of a file or of the standard input. -/
structure Options where
  format : Format := {}
  line : Option String := none
  file : Option String := none
  deriving DecidableEq

end ShellLine.Echo
