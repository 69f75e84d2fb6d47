import ShellLine.Echo.Run

/-!
# Arguments ask for options

All options can be asked for, save for a file without a name: there are arguments that are
read as these options, whatever is in the line and in the name of the file. So what is known
about the run that options ask for is known about a run with these arguments.
-/

namespace ShellLine.Echo

/-! ## Options as arguments -/

def Format.arguments (format : Format) : List String :=
  (if format.tokens then ["--tokens"] else []) ++ if format.json then ["--json"] else []

/-- Behind an equals sign nothing in a line is taken for an option. -/
def lineArguments : Option String → List String
  | none => []
  | some line => ["-c=" ++ line]

/-- Behind the end of options no name is taken for an option. -/
def fileArguments : Option String → List String
  | none => []
  | some file => ["--", file]

/-- Arguments that ask for the options. -/
def Options.arguments (options : Options) : List String :=
  options.format.arguments ++ (lineArguments options.line ++ fileArguments options.file)

/-! ## Arguments are read as options -/

theorem Argument.ofString_line (line : String) : ofString ("-c=" ++ line) = .line line := by
  simp [ofString, ofAttached]

section Steps

variable {argument : String} (options : Options) (rest : List String)

theorem readArguments_of_tokens (h : Argument.ofString argument = .tokens) :
    readArguments options (argument :: rest) =
      options.withTokens.bind fun options ↦ readArguments options rest := by
  rw [readArguments.eq_def]
  simp only [h]

theorem readArguments_of_json (h : Argument.ofString argument = .json) :
    readArguments options (argument :: rest) =
      options.withJson.bind fun options ↦ readArguments options rest := by
  rw [readArguments.eq_def]
  simp only [h]

theorem readArguments_of_line {line : String} (h : Argument.ofString argument = .line line) :
    readArguments options (argument :: rest) =
      (options.withLine line).bind fun options ↦ readArguments options rest := by
  rw [readArguments.eq_def]
  simp only [h]

theorem readArguments_of_endOfOptions (h : Argument.ofString argument = .endOfOptions) :
    readArguments options (argument :: rest) = (readOperands options rest).map .echo := by
  rw [readArguments.eq_def]
  simp only [h]

end Steps

theorem readArguments_format (format : Format) (rest : List String) :
    readArguments {} (format.arguments ++ rest) = readArguments ⟨format, none, none⟩ rest := by
  have htokens : Argument.ofString "--tokens" = .tokens := by decide
  have hjson : Argument.ofString "--json" = .json := by decide
  obtain ⟨tokens, json⟩ := format
  cases tokens with
  | false =>
    cases json with
    | false => rfl
    | true => exact readArguments_of_json _ rest hjson
  | true =>
    cases json with
    | false => exact readArguments_of_tokens _ rest htokens
    | true =>
      exact (readArguments_of_tokens _ _ htokens).trans (readArguments_of_json _ rest hjson)

theorem readArguments_line (format : Format) (line : Option String) (rest : List String) :
    readArguments ⟨format, none, none⟩ (lineArguments line ++ rest) =
      readArguments ⟨format, line, none⟩ rest := by
  cases line with
  | none => rfl
  | some line => exact readArguments_of_line _ rest (Argument.ofString_line line)

theorem readArguments_file (format : Format) (line : Option String) {file : Option String}
    (h : file ≠ some "") :
    readArguments ⟨format, line, none⟩ (fileArguments file) =
      some (.echo ⟨format, line, file⟩) := by
  cases file with
  | none => rfl
  | some file =>
    have hend : Argument.ofString "--" = .endOfOptions := by decide
    have hname : file ≠ "" := fun hempty ↦ h (congrArg some hempty)
    rw [fileArguments, readArguments_of_endOfOptions _ _ hend]
    simp [readOperands, Options.withFile, hname]

theorem ofArguments?_arguments {options : Options} (h : options.file ≠ some "") :
    Invocation.ofArguments? options.arguments = some (.echo options) := by
  obtain ⟨format, line, file⟩ := options
  calc
    Invocation.ofArguments? (Options.arguments ⟨format, line, file⟩)
      = readArguments ⟨format, none, none⟩ (lineArguments line ++ fileArguments file) :=
        readArguments_format format _
    _ = readArguments ⟨format, line, none⟩ (fileArguments file) := readArguments_line format line _
    _ = some (.echo ⟨format, line, file⟩) := readArguments_file format line h

/-- A run with these arguments is the run that the options ask for. -/
theorem run_arguments {options : Options} (h : options.file ≠ some "") {m : Type → Type} [Monad m]
    (read : Option String → m (Except InputError (List UInt8))) :
    run read options.arguments = options.run read := by
  rw [run, ofArguments?_arguments h]

end ShellLine.Echo
