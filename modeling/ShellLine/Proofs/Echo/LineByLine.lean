import ShellLine.Echo.Lines
import ShellLine.Proofs.Echo.Input

/-!
# An input is echoed line by line

A run over an input is put together from runs over its lines. What is written for a
line depends on this line only, and the worst line decides the exit code. A line that
is no text ends the run: what was written before stays, and what follows is not read.
-/

namespace ShellLine.Echo

open Text

/-! ## Reports one after another -/

namespace Report

theorem append_empty (report : Report) : report ++ empty = report := by
  obtain ⟨stdout, stderr, status⟩ := report
  change (⟨stdout ++ "", stderr ++ "", status.worse .success⟩ : Report) = _
  rw [String.append_empty, String.append_empty]
  cases status <;> rfl

theorem empty_append (report : Report) : empty ++ report = report := by
  obtain ⟨stdout, stderr, status⟩ := report
  change (⟨"" ++ stdout, "" ++ stderr, Status.success.worse status⟩ : Report) = _
  rw [String.empty_append, String.empty_append]
  cases status <;> rfl

theorem append_assoc (a b c : Report) : a ++ b ++ c = a ++ (b ++ c) := by
  change (⟨a.stdout ++ b.stdout ++ c.stdout, a.stderr ++ b.stderr ++ c.stderr,
    (a.status.worse b.status).worse c.status⟩ : Report) =
      ⟨a.stdout ++ (b.stdout ++ c.stdout), a.stderr ++ (b.stderr ++ c.stderr),
        a.status.worse (b.status.worse c.status)⟩
  rw [String.append_assoc, String.append_assoc]
  cases a.status <;> cases b.status <;> cases c.status <;> rfl

instance : Std.Associative (fun a b : Report ↦ a ++ b) := ⟨append_assoc⟩

theorem concat_append (front rest : List Report) :
    concat (front ++ rest) = concat front ++ concat rest := by
  rw [concat, List.foldl_append, ← append_empty (List.foldl (· ++ ·) empty front),
    List.foldl_assoc]
  rfl

theorem concat_singleton (report : Report) : concat [report] = report :=
  empty_append report

theorem concat_cons (report : Report) (rest : List Report) :
    concat (report :: rest) = report ++ concat rest := by
  rw [← List.singleton_append, concat_append, concat_singleton]

/-- A failure is told behind what was written, and settles how the run went. -/
theorem append_failed (report : Report) (message : String) :
    report ++ failed message =
      ⟨report.stdout, report.stderr ++ ("arosh: " ++ message ++ "\n"), .failed⟩ := by
  obtain ⟨stdout, stderr, status⟩ := report
  change (⟨stdout ++ "", stderr ++ ("arosh: " ++ message ++ "\n"), status.worse .failed⟩ : Report) =
    _
  rw [String.append_empty]
  cases status <;> rfl

end Report

theorem Status.code_eq_two_iff {status : Status} : status.code = 2 ↔ status = .failed := by
  cases status <;> decide

theorem Status.worse_eq_failed_iff {a b : Status} :
    a.worse b = .failed ↔ a = .failed ∨ b = .failed := by
  cases a <;> cases b <;> decide

/-! ## Reports of lines -/

section Lines

variable (format : Format)

/-- What is reported for the text of one line. -/
def echoText (line : String) : Report :=
  if allBlank line then .empty else echoLine format line

/-- What is reported for lines. -/
def echoLines (lines : List RawLine) : Report :=
  .concat (lineReports format lines)

theorem echoLines_cons_of_text {raw : RawLine} {line : String} (h : raw.text? = some line)
    (rest : List RawLine) :
    echoLines format (raw :: rest) = echoText format line ++ echoLines format rest := by
  rw [echoLines, lineReports, h, echoText]
  by_cases hblank : allBlank line = true
  · simp only [if_pos hblank]
    exact (Report.empty_append _).symm
  · simp only [if_neg hblank]
    exact Report.concat_cons _ _

theorem echoLines_cons_of_none {raw : RawLine} (h : raw.text? = none) (rest : List RawLine) :
    echoLines format (raw :: rest) = .failed InputError.notText.message := by
  rw [echoLines, lineReports, h]
  exact Report.concat_singleton _

theorem echoText_of_allBlank {line : String} (h : allBlank line = true) :
    echoText format line = .empty :=
  if_pos h

theorem echoText_of_not_allBlank {line : String} (h : allBlank line = false) :
    echoText format line = echoLine format line :=
  if_neg (Bool.eq_false_iff.1 h)

/-- Only input can fail, not what is made of it. -/
theorem status_echoText_ne_failed (line : String) : (echoText format line).status ≠ .failed := by
  unfold echoText
  split
  · exact nofun
  · unfold echoLine
    split
    · exact nofun
    · split <;> exact nofun

/-- Lines behind others add their report, unless the ones in front have failed. -/
theorem echoLines_append (front rest : List RawLine) :
    echoLines format (front ++ rest) =
      if (echoLines format front).status = .failed then echoLines format front
      else echoLines format front ++ echoLines format rest := by
  induction front with
  | nil =>
    rw [List.nil_append, if_neg (show (echoLines format []).status ≠ .failed from nofun)]
    exact (Report.empty_append _).symm
  | cons raw others ih =>
    cases htext : raw.text? with
    | none =>
      rw [List.cons_append, echoLines_cons_of_none format htext,
        echoLines_cons_of_none format htext]
      rfl
    | some line =>
      have hcontinues : (echoText format line ++ echoLines format others).status = .failed ↔
          (echoLines format others).status = .failed := by
        rw [Report.status_append, Status.worse_eq_failed_iff,
          or_iff_right (status_echoText_ne_failed format line)]
      rw [List.cons_append, echoLines_cons_of_text format htext,
        echoLines_cons_of_text format htext, ih]
      by_cases hfailed : (echoLines format others).status = .failed
      · rw [if_pos hfailed, if_pos (hcontinues.2 hfailed)]
      · rw [if_neg hfailed, if_neg (mt hcontinues.1 hfailed), Report.append_assoc]

end Lines

/-! ## Runs over an input -/

/-- What a run reports when the input that it asks for has the given content. -/
def Options.reportOn (options : Options) (content : List UInt8) : Report :=
  Id.run (options.run fun _ ↦ pure (.ok content))

/-- A run reads its input once. It ends with the report on the content, or tells why the input
cannot be read. -/
def Options.Reports (options : Options) (report : List UInt8 → Report) : Prop :=
  ∀ {m : Type → Type} [Monad m] (read : Option String → m (Except InputError (List UInt8))),
    options.run read = do
      match ← read options.file with
      | .ok content => pure (report content)
      | .error e => pure (.failed e.message)

variable {options : Options}

theorem reportOn_of_line (options : Options) (line : String) (content : List UInt8) :
    { options with line := some line }.reportOn content = echoLine options.format line := rfl

theorem reportOn_of_line_eq_none (h : options.line = none) (content : List UInt8) :
    options.reportOn content = echoLines options.format (rawLines content) := by
  unfold Options.reportOn Options.run
  rw [h]
  rfl

/-- It makes no difference where the content comes from. -/
theorem reports_reportOn (h : options.line = none) : options.Reports options.reportOn := by
  intro m _ read
  unfold Options.run
  rw [h]
  apply congrArg (read options.file >>= ·)
  funext input
  cases input with
  | ok content => exact congrArg pure (reportOn_of_line_eq_none h content).symm
  | error e => rfl

theorem reportOn_append (h : options.line = none) {front : List UInt8} (hfront : Ended front)
    (rest : List UInt8) :
    options.reportOn (front ++ rest) =
      if (options.reportOn front).status = .failed then options.reportOn front
      else options.reportOn front ++ options.reportOn rest := by
  rw [reportOn_of_line_eq_none h, reportOn_of_line_eq_none h, reportOn_of_line_eq_none h,
    rawLines_append hfront, echoLines_append]

theorem reportOn_unended (h : options.line = none) {line : String} (hline : '\n' ∉ line.toList) :
    options.reportOn (utf8 line) = echoText options.format line := by
  rw [reportOn_of_line_eq_none h]
  by_cases hempty : utf8 line = []
  · obtain rfl : line = "" := utf8_injective hempty
    rw [hempty, rawLines]
    rfl
  · rw [rawLines_of_not_mem (lineFeed_not_mem_utf8 hline) hempty,
      echoLines_cons_of_text _ (text?_unended line)]
    exact Report.append_empty _

theorem reportOn_ended (h : options.line = none) {line : String} (hline : '\n' ∉ line.toList) :
    options.reportOn (utf8 line ++ [lineFeed]) =
      echoText options.format (dropCarriageReturn line) := by
  rw [reportOn_of_line_eq_none h, rawLines_line (lineFeed_not_mem_utf8 hline),
    echoLines_cons_of_text _ (text?_ended line), rawLines]
  exact Report.append_empty _

theorem reportOn_not_text (h : options.line = none) {bytes rest : List UInt8}
    (hbytes : ∀ text, bytes ≠ utf8 text) (hline : lineFeed ∉ bytes)
    (hrest : rest = [] ∨ rest.head? = some lineFeed) :
    options.reportOn (bytes ++ rest) = .failed InputError.notText.message := by
  rw [reportOn_of_line_eq_none h]
  have hnone := text?_eq_none hbytes
  cases rest with
  | nil =>
    rw [List.append_nil, rawLines_of_not_mem hline (hbytes "")]
    exact echoLines_cons_of_none _ (hnone false) []
  | cons byte rest =>
    obtain rfl : byte = lineFeed := Option.some.inj (hrest.resolve_left (List.cons_ne_nil _ _))
    rw [rawLines_line hline]
    exact echoLines_cons_of_none _ (hnone true) _

/-- A run over an input ends with the report on it, wherever the input is read. This report is put
together from the lines. Whole lines in front add their report to that of the rest, and if they
fail, there is nothing to add. A single line is echoed as it is when it is given as an argument, but
for a blank one, which is passed over. A line that is no text fails, and what was reported before it
stays. -/
theorem reportOn_line_by_line {options : Options} (h : options.line = none) :
    options.Reports options.reportOn ∧
    (∀ front rest : List UInt8, (front = [] ∨ front.getLast? = some lineFeed) →
      ((options.reportOn front).status.code = 2 →
        options.reportOn (front ++ rest) = options.reportOn front) ∧
      ((options.reportOn front).status.code ≠ 2 →
        (options.reportOn (front ++ rest)).stdout =
            (options.reportOn front).stdout ++ (options.reportOn rest).stdout ∧
          (options.reportOn (front ++ rest)).stderr =
            (options.reportOn front).stderr ++ (options.reportOn rest).stderr ∧
          (options.reportOn (front ++ rest)).status.code =
            max (options.reportOn front).status.code (options.reportOn rest).status.code)) ∧
    (∀ (line : String) (content : List UInt8), '\n' ∉ line.toList →
      (allBlank line = true → options.reportOn (utf8 line) = .empty ∧
        options.reportOn (utf8 line ++ [lineFeed]) = .empty) ∧
      (allBlank line = false →
        options.reportOn (utf8 line) = { options with line := some line }.reportOn content ∧
          (line.toList.getLast? ≠ some '\r' → options.reportOn (utf8 line ++ [lineFeed]) =
            { options with line := some line }.reportOn content) ∧
          ∀ shorter, line = shorter ++ "\r" → options.reportOn (utf8 line ++ [lineFeed]) =
            { options with line := some shorter }.reportOn content)) ∧
    ∀ bytes rest : List UInt8, (∀ text, bytes ≠ utf8 text) → lineFeed ∉ bytes →
      (rest = [] ∨ rest.head? = some lineFeed) →
        options.reportOn (bytes ++ rest) =
            ⟨"", "arosh: stream did not contain valid UTF-8\n", .failed⟩ ∧
          ∀ front : List UInt8, (front = [] ∨ front.getLast? = some lineFeed) →
            (options.reportOn front).status.code ≠ 2 →
              options.reportOn (front ++ (bytes ++ rest)) =
                ⟨(options.reportOn front).stdout, (options.reportOn front).stderr ++
                  "arosh: stream did not contain valid UTF-8\n", .failed⟩ := by
  refine ⟨reports_reportOn h, fun front rest hfront ↦ ?_, fun line content hline ↦ ?_,
    fun bytes rest hbytes hline hrest ↦ ?_⟩
  · have happend := reportOn_append h (ended_of_getLast? hfront) rest
    refine ⟨fun hcode ↦ ?_, fun hcode ↦ ?_⟩
    · rw [happend, if_pos (Status.code_eq_two_iff.1 hcode)]
    · rw [happend, if_neg (mt Status.code_eq_two_iff.2 hcode)]
      exact ⟨rfl, rfl, Status.code_worse _ _⟩
  · have hunended := reportOn_unended h hline
    have hended := reportOn_ended h hline
    have hdrop := allBlank_dropCarriageReturn line
    refine ⟨fun hblank ↦ ?_, fun hblank ↦ ⟨?_, fun hlast ↦ ?_, fun shorter hshorter ↦ ?_⟩⟩
    · rw [hunended, hended, echoText_of_allBlank _ hblank,
        echoText_of_allBlank _ (hdrop.trans hblank)]
      exact ⟨rfl, rfl⟩
    · rw [hunended, reportOn_of_line, echoText_of_not_allBlank _ hblank]
    · rw [hended, dropCarriageReturn_of_ne hlast, reportOn_of_line,
        echoText_of_not_allBlank _ hblank]
    · rw [hshorter, dropCarriageReturn_append] at hdrop hended
      rw [hshorter, hended, reportOn_of_line]
      exact echoText_of_not_allBlank _ (hdrop.trans (hshorter ▸ hblank))
  · have hfailed := reportOn_not_text h hbytes hline hrest
    refine ⟨hfailed.trans rfl, fun front hfront hcode ↦ ?_⟩
    rw [reportOn_append h (ended_of_getLast? hfront), hfailed,
      if_neg (mt Status.code_eq_two_iff.2 hcode), Report.append_failed]
    rfl

theorem reportOn_line_by_line_mixed :
    ({} : Options).reportOn (utf8 "a;\r\n \n|\n" ++ ([98, 255] ++ utf8 "\nc")) =
      ⟨"(sequence ; (simpleCommand a []))\n",
        "parse error at 1:1: syntax error near unexpected token `|`\n  |\n" ++
          "arosh: stream did not contain valid UTF-8\n", .failed⟩ := by
  have hfront : ({} : Options).reportOn (utf8 "a;\r\n \n|\n") =
      ⟨"(sequence ; (simpleCommand a []))\n",
        "parse error at 1:1: syntax error near unexpected token `|`\n  |\n", .rejected⟩ := by
    decide +kernel
  have hended : (utf8 "a;\r\n \n|\n").getLast? = some lineFeed := by decide +kernel
  have hbytes : ∀ text, [98, 255] ≠ utf8 text := by
    intro text hutf8
    have hdecode := fromUTF8?_utf8 text
    rw [← hutf8] at hdecode
    have hnone : String.fromUTF8? ⟨[98, 255].toArray⟩ = none := by decide +kernel
    rw [hnone] at hdecode
    cases hdecode
  have hcode : (({} : Options).reportOn (utf8 "a;\r\n \n|\n")).status.code ≠ 2 := by
    rw [hfront]
    decide
  have hrest : (utf8 "\nc").head? = some lineFeed := by decide +kernel
  obtain ⟨-, -, -, hlast⟩ := @reportOn_line_by_line {} rfl
  obtain ⟨-, hstays⟩ := hlast [98, 255] (utf8 "\nc") hbytes (by decide) (.inr hrest)
  rw [hstays _ (.inr hended) hcode, hfront]

end ShellLine.Echo
