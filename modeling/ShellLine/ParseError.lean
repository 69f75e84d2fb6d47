import ShellLine.Token.Basic

/-!
# Parse errors

An error says why an input is not a program and where, and quotes the line to
which it points.
-/

namespace ShellLine

/-- Why an input is not a program. Operators and tokens are given as they are written. -/
inductive ParseError.Cause where
  | operatorAfterOperator (operator found : String)
  | endAfterOperator (operator : String)
  | missingTarget (operator : String)
  | unexpectedToken (found : String)
  | unsupported (construct : String)
  deriving DecidableEq

structure ParseError where
  cause : ParseError.Cause
  position : Position
  sourceLine : String
  deriving DecidableEq

namespace ParseError

def Cause.message : Cause → String
  | .operatorAfterOperator operator found =>
    "unexpected `" ++ found ++ "` after `" ++ operator ++ "`"
  | .endAfterOperator operator => "unexpected end of input after `" ++ operator ++ "`"
  | .missingTarget operator => "missing redirection target after `" ++ operator ++ "`"
  | .unexpectedToken found => "syntax error near unexpected token `" ++ found ++ "`"
  | .unsupported construct => construct ++ " is not supported"

/-- The place and the cause, and the quoted line below them. -/
def message (e : ParseError) : String :=
  "parse error at " ++ toString e.position.line ++ ":" ++ toString e.position.column ++ ": " ++
    e.cause.message ++ "\n  " ++ e.sourceLine

end ParseError

end ShellLine
