/-!
# Operators

Control operators join commands and bind at three levels: a pipe tightest, the
conditionals next, the separators loosest. Redirection operators attach a file
to a command. Each operator has one spelling, and no two share theirs.
-/

namespace ShellLine

/-! ## Control operators -/

/-- What ends a command, so that the next one follows it or runs beside it. -/
inductive Separator where
  | semicolon
  | ampersand
  deriving DecidableEq

/-- What lets a command run after the success or the failure of another. -/
inductive Conditional where
  | and
  | or
  deriving DecidableEq

/-- What may stand between two commands. -/
inductive ControlOperator where
  | separator (op : Separator)
  | conditional (op : Conditional)
  | pipe
  deriving DecidableEq

/-- How tightly a control operator binds, from the tightest on. -/
inductive Level where
  | pipeline
  | conditional
  | sequence
  deriving DecidableEq

namespace Separator

def all : List Separator := [.semicolon, .ampersand]

def spelling : Separator → String
  | .semicolon => ";"
  | .ampersand => "&"

theorem mem_all (op : Separator) : op ∈ all := by cases op <;> decide

end Separator

namespace Conditional

def all : List Conditional := [.and, .or]

def spelling : Conditional → String
  | .and => "&&"
  | .or => "||"

theorem mem_all (op : Conditional) : op ∈ all := by cases op <;> decide

end Conditional

namespace ControlOperator

def all : List ControlOperator :=
  Separator.all.map .separator ++ Conditional.all.map .conditional ++ [.pipe]

def spelling : ControlOperator → String
  | .separator op => op.spelling
  | .conditional op => op.spelling
  | .pipe => "|"

def level : ControlOperator → Level
  | .separator _ => .sequence
  | .conditional _ => .conditional
  | .pipe => .pipeline

theorem mem_all (op : ControlOperator) : op ∈ all := by
  cases op with
  | separator op => cases op <;> decide
  | conditional op => cases op <;> decide
  | pipe => decide

end ControlOperator

/-! ## Redirection operators -/

/-- What attaches a file, or another descriptor, to a command. -/
inductive RedirectionOperator where
  | read
  | hereDocument
  | hereDocumentStripped
  | duplicateInput
  | readWrite
  | write
  | append
  | duplicateOutput
  | clobber
  deriving DecidableEq

namespace RedirectionOperator

def all : List RedirectionOperator :=
  [.read, .hereDocument, .hereDocumentStripped, .duplicateInput, .readWrite, .write, .append,
   .duplicateOutput, .clobber]

def spelling : RedirectionOperator → String
  | .read => "<"
  | .hereDocument => "<<"
  | .hereDocumentStripped => "<<-"
  | .duplicateInput => "<&"
  | .readWrite => "<>"
  | .write => ">"
  | .append => ">>"
  | .duplicateOutput => ">&"
  | .clobber => ">|"

theorem mem_all (op : RedirectionOperator) : op ∈ all := by cases op <;> decide

end RedirectionOperator

/-! ## Spellings tell operators apart -/

theorem Separator.spelling_injective {a b : Separator} (h : a.spelling = b.spelling) : a = b := by
  cases a <;> cases b <;> simp_all [spelling]

theorem Conditional.spelling_injective {a b : Conditional} (h : a.spelling = b.spelling) :
    a = b := by
  cases a <;> cases b <;> simp_all [spelling]

theorem ControlOperator.spelling_injective {a b : ControlOperator} (h : a.spelling = b.spelling) :
    a = b := by
  rcases a with (_ | _) | (_ | _) | _ <;> rcases b with (_ | _) | (_ | _) | _ <;>
    simp_all [spelling, Separator.spelling, Conditional.spelling]

theorem RedirectionOperator.spelling_injective {a b : RedirectionOperator}
    (h : a.spelling = b.spelling) : a = b := by
  cases a <;> cases b <;> simp_all [spelling]

end ShellLine
