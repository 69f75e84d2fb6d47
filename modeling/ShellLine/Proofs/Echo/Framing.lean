import ShellLine.Proofs.Echo.LineByLine
import ShellLine.Proofs.Grammar.Message
import ShellLine.Proofs.Json.Written
import ShellLine.Proofs.Program.Spacing

/-!
# One line for each program

A run writes one line for each program among the lines of its input and two for each
line that is no program. That holds for text as for JSON: nothing that is written holds
a line feed of its own, whatever the words of the input are, and no line is empty. What
is told about errors does not depend on the form in which programs are shown.
-/

namespace ShellLine

open Text

theorem BlanksAreSpaces.unbroken {text : String} (h : BlanksAreSpaces text.toList) :
    Unbroken text := by
  intro c hc
  rw [Bool.eq_false_iff]
  intro hbreak
  rw [h c hc (isBlank_of_isLineBreak hbreak)] at hbreak
  exact absurd hbreak (by decide)

theorem Json.Printable.unbroken {text : String} (h : Json.Printable text.toList) :
    Unbroken text := by
  intro c hc
  rw [Bool.eq_false_iff]
  intro hbreak
  have hlow := h c hc
  simp only [isLineBreak, Bool.or_eq_true, beq_iff_eq] at hbreak
  rcases hbreak with rfl | rfl
  · exact absurd hlow (by decide)
  · exact absurd hlow (by decide)

theorem Json.compact_ne_empty (value : Json) : value.compact ≠ "" := by
  intro hempty
  obtain ⟨c, behind, htext, -, -⟩ := value.compactThen_opens []
  rw [compact, htext] at hempty
  exact List.cons_ne_nil c behind (String.ofList_injective hempty)

namespace Echo

/-! ## Lines of a text -/

/-- Cut at its line feeds, the text is these lines, and nothing stands behind the last one. -/
def HasLines (text : String) (lines : List String) : Prop :=
  text.toList.splitOn '\n' = lines.map String.toList ++ [[]]

theorem hasLines_empty : HasLines "" [] := List.splitOn_nil '\n'

theorem HasLines.cons {line rest : String} {lines : List String} (hline : Unbroken line)
    (h : HasLines rest lines) : HasLines (line ++ "\n" ++ rest) (line :: lines) := by
  have htext : (line ++ "\n" ++ rest).toList = line.toList ++ '\n' :: rest.toList := by
    rw [String.toList_append, String.toList_append, List.append_assoc]
    rfl
  rw [HasLines, htext, List.splitOn_append_cons_self_of_not_mem hline.newline_not_mem, h]
  rfl

/-! ## Lines of an input -/

/-- The texts of lines, up to the first line that is no text. -/
def readable : List RawLine → List String
  | [] => []
  | raw :: rest =>
    match raw.text? with
    | none => []
    | some line => line :: readable rest

/-- The texts of the lines that are echoed: the blank ones are passed over. -/
def echoed (lines : List RawLine) : List String :=
  (readable lines).filter fun line ↦ !allBlank line

/-- What is told when a line is no text. -/
def failures (lines : List RawLine) : List String :=
  if lines.any (·.text?.isNone) then ["arosh: stream did not contain valid UTF-8"] else []

/-- The programs among texts, in order. -/
def programs (texts : List String) : List Program :=
  texts.filterMap fun text ↦ (parse text).toOption

/-- The errors of the texts that are no programs, in order. -/
def errors (texts : List String) : List ParseError :=
  texts.filterMap fun text ↦
    match parse text with
    | .ok _ => none
    | .error e => some e

section Lines

variable {raw : RawLine} {line : String}

theorem echoed_of_none (h : raw.text? = none) (rest : List RawLine) :
    echoed (raw :: rest) = [] := by
  rw [echoed, readable, h]
  rfl

theorem echoed_of_allBlank (h : raw.text? = some line) (hblank : allBlank line = true)
    (rest : List RawLine) : echoed (raw :: rest) = echoed rest := by
  rw [echoed, readable, h]
  exact List.filter_cons_of_neg (by rw [hblank]; decide)

theorem echoed_of_not_allBlank (h : raw.text? = some line) (hblank : allBlank line = false)
    (rest : List RawLine) : echoed (raw :: rest) = line :: echoed rest := by
  rw [echoed, readable, h]
  exact List.filter_cons_of_pos (by rw [hblank]; decide)

theorem failures_of_none (h : raw.text? = none) (rest : List RawLine) :
    failures (raw :: rest) = ["arosh: stream did not contain valid UTF-8"] := by
  rw [failures, List.any_cons, h]
  rfl

theorem failures_of_text (h : raw.text? = some line) (rest : List RawLine) :
    failures (raw :: rest) = failures rest := by
  rw [failures, List.any_cons, h]
  rfl

end Lines

theorem programs_of_ok {text : String} {program : Program} (h : parse text = .ok program)
    (rest : List String) : programs (text :: rest) = program :: programs rest :=
  List.filterMap_cons_some (by rw [h]; rfl)

theorem programs_of_error {text : String} {e : ParseError} (h : parse text = .error e)
    (rest : List String) : programs (text :: rest) = programs rest :=
  List.filterMap_cons_none (by rw [h]; rfl)

theorem errors_of_ok {text : String} {program : Program} (h : parse text = .ok program)
    (rest : List String) : errors (text :: rest) = errors rest :=
  List.filterMap_cons_none (by rw [h])

theorem errors_of_error {text : String} {e : ParseError} (h : parse text = .error e)
    (rest : List String) : errors (text :: rest) = e :: errors rest :=
  List.filterMap_cons_some (by rw [h])

/-! ## Runs in both forms -/

/-- What a run has written as text and what it has written as JSON, for the same lines. -/
structure Framed (programs : List Program) (errors : List ParseError) (failures : List String)
    (text json : Report) : Prop where
  status_eq : json.status = text.status
  stderr_eq : json.stderr = text.stderr
  stdout_text : HasLines text.stdout (programs.map Program.render)
  stdout_json : HasLines json.stdout (programs.map fun program ↦ program.toJson.compact)
  stderr_lines : HasLines text.stderr (errors.flatMap ParseError.lines ++ failures)

namespace Framed

variable {programs : List Program} {errors : List ParseError} {failures : List String}
  {text json : Report}

theorem empty : Framed [] [] [] .empty .empty :=
  ⟨rfl, rfl, hasLines_empty, hasLines_empty, hasLines_empty⟩

theorem notText :
    Framed [] [] ["arosh: stream did not contain valid UTF-8"]
      (.failed InputError.notText.message) (.failed InputError.notText.message) := by
  have hline : Unbroken "arosh: stream did not contain valid UTF-8" := .of_all (by decide)
  have hstderr := HasLines.cons hline hasLines_empty
  exact ⟨rfl, rfl, hasLines_empty, hasLines_empty, hstderr⟩

theorem accepted {program : Program} (hprogram : Unbroken program.render)
    (h : Framed programs errors failures text json) :
    Framed (program :: programs) errors failures
      (.accepted program.render ++ text) (.accepted program.toJson.compact ++ json) where
  status_eq := by
    rw [Report.status_append, Report.status_append, h.status_eq]
    rfl
  stderr_eq := by
    rw [Report.stderr_append, Report.stderr_append, h.stderr_eq]
    rfl
  stdout_text := h.stdout_text.cons hprogram
  stdout_json := h.stdout_json.cons program.toJson.printable_compact.unbroken
  stderr_lines := by
    change HasLines ("" ++ text.stderr) _
    rw [String.empty_append]
    exact h.stderr_lines

theorem rejected {e : ParseError} (he : Unbroken e.headline ∧ Unbroken e.quotation)
    (h : Framed programs errors failures text json) :
    Framed programs (e :: errors) failures
      (.rejected e.message ++ text) (.rejected e.message ++ json) where
  status_eq := by
    rw [Report.status_append, Report.status_append, h.status_eq]
  stderr_eq := by
    rw [Report.stderr_append, Report.stderr_append, h.stderr_eq]
  stdout_text := by
    change HasLines ("" ++ text.stdout) _
    rw [String.empty_append]
    exact h.stdout_text
  stdout_json := by
    change HasLines ("" ++ json.stdout) _
    rw [String.empty_append]
    exact h.stdout_json
  stderr_lines := by
    have hlines := (h.stderr_lines.cons he.2).cons he.1
    have hstderr : e.message ++ "\n" ++ text.stderr =
        e.headline ++ "\n" ++ (e.quotation ++ "\n" ++ text.stderr) := by
      rw [e.message_eq]
      simp only [String.append_assoc]
    change HasLines (e.message ++ "\n" ++ text.stderr) _
    rw [hstderr]
    exact hlines

end Framed

theorem unbroken_render_of_parse {line : String} {program : Program}
    (h : parse line = .ok program) : Unbroken program.render :=
  (Program.Canonical.of_parse h).blanksAreSpaces.unbroken

theorem echoText_of_ok {line : String} {program : Program} (hblank : allBlank line = false)
    (h : parse line = .ok program) (json : Bool) :
    echoText ⟨false, json⟩ line = .accepted (showProgram json program) := by
  rw [echoText_of_not_allBlank _ hblank, echoLine, if_neg Bool.false_ne_true, h]

theorem echoText_of_error {line : String} {e : ParseError} (hblank : allBlank line = false)
    (h : parse line = .error e) (json : Bool) :
    echoText ⟨false, json⟩ line = .rejected e.message := by
  rw [echoText_of_not_allBlank _ hblank, echoLine, if_neg Bool.false_ne_true, h]

/-- One line more is written for a program and two for an error, in both forms alike. -/
theorem framed_echoLines (lines : List RawLine) :
    Framed (programs (echoed lines)) (errors (echoed lines)) (failures lines)
      (echoLines ⟨false, false⟩ lines) (echoLines ⟨false, true⟩ lines) := by
  induction lines with
  | nil => exact Framed.empty
  | cons raw rest ih =>
    cases htext : raw.text? with
    | none =>
      rw [echoLines_cons_of_none _ htext, echoLines_cons_of_none _ htext, echoed_of_none htext,
        failures_of_none htext]
      exact Framed.notText
    | some line =>
      rw [echoLines_cons_of_text _ htext, echoLines_cons_of_text _ htext, failures_of_text htext]
      by_cases hblank : allBlank line = true
      · rw [echoText_of_allBlank _ hblank, echoText_of_allBlank _ hblank, Report.empty_append,
          Report.empty_append, echoed_of_allBlank htext hblank]
        exact ih
      · have hblank := Bool.eq_false_iff.2 hblank
        rw [echoed_of_not_allBlank htext hblank]
        cases hparse : parse line with
        | ok program =>
          rw [echoText_of_ok hblank hparse, echoText_of_ok hblank hparse, programs_of_ok hparse,
            errors_of_ok hparse]
          exact ih.accepted (unbroken_render_of_parse hparse)
        | error e =>
          rw [echoText_of_error hblank hparse, echoText_of_error hblank hparse,
            programs_of_error hparse, errors_of_error hparse]
          exact ih.rejected (unbroken_of_parse_eq_error hparse)

/-! ## Runs over an input -/

/-- A run over an input that shows programs, as text or as JSON. -/
def Options.showing (json : Bool) (file : Option String) : Options :=
  ⟨⟨false, json⟩, none, file⟩

theorem exists_line_of_mem_programs {lines : List RawLine} {program : Program}
    (h : program ∈ programs (echoed lines)) :
    ∃ line, parse line = .ok program ∧ allBlank line = false := by
  obtain ⟨line, hline, hprogram⟩ := List.mem_filterMap.1 h
  have hblank := (List.mem_filter.1 hline).2
  rw [Bool.not_eq_true'] at hblank
  refine ⟨line, ?_, hblank⟩
  cases hparse : parse line with
  | ok other =>
    rw [hparse] at hprogram
    rw [Option.some.inj hprogram]
  | error e =>
    rw [hparse] at hprogram
    cases hprogram

theorem render_ne_empty_of_mem_programs {lines : List RawLine} {program : Program}
    (h : program ∈ programs (echoed lines)) : program.render ≠ "" := by
  obtain ⟨line, hparse, hblank⟩ := exists_line_of_mem_programs h
  refine Program.render_ne_empty fun hnodes ↦ ?_
  have hall := (tokenize_eq_nil_iff line).1 ((nodes_eq_nil_iff_of_parse hparse).1 hnodes)
  rw [hblank] at hall
  cases hall

/-- Runs that show programs as text or as JSON end with the report on their input. For every content
the two reports tell the same errors and exit alike. Each writes one line for every program among
the lines that are not blank, in order, and two for every error. None of the lines is empty, and the
lines of text hold no blank character but spaces. -/
theorem reportOn_framed (file : Option String) (content : List UInt8) :
    (∀ json, (Options.showing json file).Reports (Options.showing json file).reportOn) ∧
    Framed (programs (echoed (rawLines content))) (errors (echoed (rawLines content)))
        (failures (rawLines content)) ((Options.showing false file).reportOn content)
        ((Options.showing true file).reportOn content) ∧
      ∀ program ∈ programs (echoed (rawLines content)),
        program.render ≠ "" ∧ program.toJson.compact ≠ "" ∧
          ∀ c ∈ program.render.toList, isBlank c = true → c = ' ' := by
  refine ⟨fun json ↦ reports_reportOn rfl, ?_, ?_⟩
  · rw [reportOn_of_line_eq_none rfl, reportOn_of_line_eq_none rfl]
    exact framed_echoLines (rawLines content)
  · intro program hprogram
    obtain ⟨line, hparse, -⟩ := exists_line_of_mem_programs hprogram
    exact ⟨render_ne_empty_of_mem_programs hprogram, program.toJson.compact_ne_empty,
      (Program.Canonical.of_parse hparse).blanksAreSpaces⟩

/-- A word stands in front of a line separator, which is no line feed, and a line of blanks, an
operator that is no program and bytes that are no text follow. -/
theorem reportOn_framed_mixed :
    ∃ content,
      HasLines ((Options.showing false none).reportOn content).stdout
          ["(sequence ; (simpleCommand é []))"] ∧
        HasLines ((Options.showing true none).reportOn content).stdout
          ["\x7b\"nodes\":[\x7b\"type\":\"Sequence\",\"separator\":\";\",\"lhs\":" ++
            "\x7b\"type\":\"SimpleCommand\",\"name\":\"é\",\"params\":[],\"redirections\":" ++
            "[]\x7d,\"rhs\":null\x7d]\x7d"] ∧
        HasLines ((Options.showing true none).reportOn content).stderr
          ["parse error at 1:1: syntax error near unexpected token `|`", "  |",
            "arosh: stream did not contain valid UTF-8"] := by
  have hprograms : programs (echoed (rawLines (utf8 "é\u2028;\r\n \n|\n" ++ [98, 255]))) =
      [⟨[.terminated .semicolon (.simple ⟨"é", [], []⟩)]⟩] := by
    decide +kernel
  have herrors : errors (echoed (rawLines (utf8 "é\u2028;\r\n \n|\n" ++ [98, 255]))) =
      [⟨.unexpectedToken "|", ⟨1, 1⟩, "|"⟩] := by
    decide +kernel
  have hfailures : failures (rawLines (utf8 "é\u2028;\r\n \n|\n" ++ [98, 255])) =
      ["arosh: stream did not contain valid UTF-8"] := by
    decide +kernel
  obtain ⟨-, hframed, -⟩ := reportOn_framed none (utf8 "é\u2028;\r\n \n|\n" ++ [98, 255])
  rw [hprograms, herrors, hfailures] at hframed
  have hcompact : (Program.mk [.terminated .semicolon (.simple ⟨"é", [], []⟩)]).toJson.compact =
      "\x7b\"nodes\":[\x7b\"type\":\"Sequence\",\"separator\":\";\",\"lhs\":" ++
        "\x7b\"type\":\"SimpleCommand\",\"name\":\"é\",\"params\":[],\"redirections\":[]\x7d," ++
        "\"rhs\":null\x7d]\x7d" := by
    decide +kernel
  have hjson := hframed.stdout_json
  rw [List.map_singleton, hcompact] at hjson
  refine ⟨_, hframed.stdout_text, hjson, ?_⟩
  rw [hframed.stderr_eq]
  exact hframed.stderr_lines

end Echo

end ShellLine
