import ShellLine.Operator
import ShellLine.ReservedWord

/-!
# Tokens

A token is a piece of the input with its kind and the place where it begins. Its
display names the kind, and adds the text where the kind leaves that open.
-/

namespace ShellLine

/-! ## Places -/

/-- A place in a text: a line and a column in it, both counted from 1 in characters. -/
structure Position where
  line : Nat
  column : Nat
  deriving DecidableEq

namespace Position

/-- Where every text begins. -/
def start : Position := ⟨1, 1⟩

/-- The place some characters further in the same line. -/
def advance (p : Position) (characters : Nat) : Position :=
  ⟨p.line, p.column + characters⟩

/-- Where the line below begins. -/
def nextLine (p : Position) : Position :=
  ⟨p.line + 1, 1⟩

end Position

/-! ## Kinds -/

/-- What a token is; the end of the input counts as one. -/
inductive Token.Kind where
  | eof
  | control (op : ControlOperator)
  | redirection (op : RedirectionOperator)
  | reserved (w : ReservedWord)
  | word
  | ioNumber
  deriving DecidableEq

namespace Token.Kind

def all : List Token.Kind :=
  [.eof] ++ ControlOperator.all.map .control ++ RedirectionOperator.all.map .redirection ++
    ReservedWord.all.map .reserved ++ [.word, .ioNumber]

theorem mem_all (kind : Token.Kind) : kind ∈ all := by
  cases kind with
  | control op => simp [all, op.mem_all]
  | redirection op => simp [all, op.mem_all]
  | reserved w => simp [all, w.mem_all]
  | eof => simp [all]
  | word => simp [all]
  | ioNumber => simp [all]

/-- How a kind is shown: by its spelling where it has one. -/
def label : Token.Kind → String
  | .eof => "EOF"
  | .control op => op.spelling
  | .redirection op => op.spelling
  | .reserved w => w.spelling
  | .word => "WORD"
  | .ioNumber => "IO_NUMBER"

theorem label_ne_nil (kind : Token.Kind) : kind.label.toList ≠ [] := by
  cases kind with
  | control op => rcases op with (_ | _) | (_ | _) | _ <;> decide
  | redirection op => cases op <;> decide
  | reserved w => cases w <;> decide
  | eof => decide
  | word => decide
  | ioNumber => decide

/-- No two kinds are shown alike. -/
theorem label_injective {a b : Token.Kind} (h : a.label = b.label) : a = b := by
  have hdistinct : ∀ a ∈ all, ∀ b ∈ all, a.label = b.label → a = b := by decide +kernel
  exact hdistinct a a.mem_all b b.mem_all h

def isControl : Token.Kind → Bool
  | .control _ => true
  | _ => false

def isRedirection : Token.Kind → Bool
  | .redirection _ => true
  | _ => false

def isReserved : Token.Kind → Bool
  | .reserved _ => true
  | _ => false

/-- Whether a token can be an argument or the target of a redirection. A reserved word can. -/
def isArgument : Token.Kind → Bool
  | .word => true
  | .reserved _ => true
  | _ => false

/-- Whether a token begins a redirection: the operator, or the number in front of it. -/
def opensRedirection : Token.Kind → Bool
  | .ioNumber => true
  | .redirection _ => true
  | _ => false

theorem isControl_iff {kind : Token.Kind} :
    kind.isControl = true ↔ ∃ op, kind = .control op := by
  cases kind <;> simp [isControl]

theorem opensRedirection_iff {kind : Token.Kind} :
    kind.opensRedirection = true ↔ kind = .ioNumber ∨ ∃ op, kind = .redirection op := by
  cases kind <;> simp [opensRedirection]

theorem not_isArgument_of_opensRedirection {kind : Token.Kind}
    (h : kind.opensRedirection = true) : ¬ kind.isArgument = true := by
  rcases opensRedirection_iff.1 h with rfl | ⟨op, rfl⟩
  · exact nofun
  · exact nofun

end Token.Kind

/-! ## Tokens -/

structure Token where
  kind : Token.Kind
  value : String
  position : Position
  deriving DecidableEq

/-- The kind of a token, with the text of a word or a number. -/
def Token.display (token : Token) : String :=
  match token.kind with
  | .word => token.kind.label ++ " " ++ token.value
  | .ioNumber => token.kind.label ++ " " ++ token.value
  | _ => token.kind.label

end ShellLine
