import ShellLine.Echo.Options

/-!
# Command-line arguments

The arguments are read from left to right, and the first one that settles the
matter does: a request for help or for the version, or an argument that cannot
stand where it stands. An option is given at most once, and so is the file.

These are the rules of an argument parser that is not part of this library, as far as
they decide what is asked for. Its messages about misused arguments are not modelled.
-/

namespace ShellLine.Echo

/-- What the arguments ask for. -/
inductive Invocation where
  | help
  | version
  | echo (options : Options)
  deriving DecidableEq

namespace Options

/-- The options with a line to echo, unless there is one already. -/
def withLine (options : Options) (line : String) : Option Options :=
  if options.line.isNone then some { options with line := some line } else none

/-- The options with a file to read, which has a name, unless there is one already. -/
def withFile (options : Options) (file : String) : Option Options :=
  if options.file.isNone ∧ file ≠ "" then some { options with file := some file } else none

def withTokens (options : Options) : Option Options :=
  if options.format.tokens then none
  else some { options with format := { options.format with tokens := true } }

def withJson (options : Options) : Option Options :=
  if options.format.json then none
  else some { options with format := { options.format with json := true } }

end Options

/-! ## Single arguments -/

/-- What one argument says by itself. -/
inductive Argument where
  | help
  | version
  | tokens
  | json
  | line (line : String)
  | lineFollows
  | endOfOptions
  | operand (value : String)
  | unknown
  deriving DecidableEq

namespace Argument

/-- An option spelled out. -/
def ofName : String → Argument
  | "" => .endOfOptions
  | "help" => .help
  | "version" => .version
  | "tokens" => .tokens
  | "json" => .json
  | _ => .unknown

/-- The line written in one argument with its option, with or without an equals sign between. -/
def ofAttached : List Char → Argument
  | [] => .lineFollows
  | '=' :: text => .line (String.ofList text)
  | text => .line (String.ofList text)

/-- An argument is an option when a hyphen begins it and more follows. -/
def ofString (argument : String) : Argument :=
  match argument.toList with
  | '-' :: '-' :: name => ofName (String.ofList name)
  | '-' :: 'c' :: attached => ofAttached attached
  | '-' :: 'h' :: _ => .help
  | '-' :: 'V' :: _ => .version
  | ['-'] => .operand argument
  | '-' :: _ => .unknown
  | _ => .operand argument

end Argument

/-! ## All arguments -/

/-- The options with what stands behind the end of options: the file, if anything does. -/
def readOperands (options : Options) : List String → Option Options
  | [] => some options
  | argument :: rest => (options.withFile argument).bind fun options ↦ readOperands options rest

/-- What arguments ask for, with the options in front of them; nothing when they are misused. -/
def readArguments (options : Options) : List String → Option Invocation
  | [] => some (.echo options)
  | argument :: rest =>
    match Argument.ofString argument with
    | .help => some .help
    | .version => some .version
    | .tokens => options.withTokens.bind fun options ↦ readArguments options rest
    | .json => options.withJson.bind fun options ↦ readArguments options rest
    | .line line => (options.withLine line).bind fun options ↦ readArguments options rest
    | .operand file => (options.withFile file).bind fun options ↦ readArguments options rest
    | .endOfOptions => (readOperands options rest).map .echo
    | .unknown => none
    | .lineFollows =>
      match rest with
      | [] => none
      | line :: rest =>
        match Argument.ofString line with
        | .operand _ => (options.withLine line).bind fun options ↦ readArguments options rest
        | _ => none

/-- What the arguments of a run ask for, unless they are misused. -/
def Invocation.ofArguments? (arguments : List String) : Option Invocation :=
  readArguments {} arguments

end ShellLine.Echo
