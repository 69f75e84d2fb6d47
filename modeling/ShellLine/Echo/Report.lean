/-!
# Reports

A report is all that a run leaves behind: what it wrote, and how it went. The
reports of two parts of a run follow one another, and the worse of the two
statuses stands.
-/

namespace ShellLine.Echo

/-- How a run went. -/
inductive Status where
  | success
  | rejected
  | failed
  deriving DecidableEq

namespace Status

/-- The exit code of a run. -/
def code : Status → Nat
  | .success => 0
  | .rejected => 1
  | .failed => 2

def worse (a b : Status) : Status :=
  if a.code ≤ b.code then b else a

theorem code_worse (a b : Status) : (a.worse b).code = max a.code b.code := by
  cases a <;> cases b <;> rfl

end Status

/-- What a run wrote to its standard output and to its standard error, and how it went. -/
structure Report where
  stdout : String
  stderr : String
  status : Status
  deriving DecidableEq

namespace Report

/-- Nothing to report. -/
def empty : Report := ⟨"", "", .success⟩

/-- A line that was echoed. -/
def accepted (text : String) : Report := ⟨text ++ "\n", "", .success⟩

/-- A line that is no program. -/
def rejected (message : String) : Report := ⟨"", message ++ "\n", .rejected⟩

/-- An input that cannot be read on. -/
def failed (message : String) : Report := ⟨"", "arosh: " ++ message ++ "\n", .failed⟩

def append (a b : Report) : Report :=
  ⟨a.stdout ++ b.stdout, a.stderr ++ b.stderr, a.status.worse b.status⟩

instance : Append Report := ⟨append⟩

/-- The reports of all parts of a run, one after the other. -/
def concat (reports : List Report) : Report :=
  reports.foldl (· ++ ·) .empty

@[simp] theorem stdout_append (a b : Report) : (a ++ b).stdout = a.stdout ++ b.stdout := rfl

@[simp] theorem stderr_append (a b : Report) : (a ++ b).stderr = a.stderr ++ b.stderr := rfl

@[simp] theorem status_append (a b : Report) : (a ++ b).status = a.status.worse b.status := rfl

end Report

end ShellLine.Echo
