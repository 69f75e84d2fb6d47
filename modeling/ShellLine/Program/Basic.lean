import ShellLine.Operator
import ShellLine.Text.Blank

/-!
# Programs

A program is what one input says: commands with their arguments and
redirections, joined by operators. Nothing in it is expanded or run.
-/

namespace ShellLine

open Text

/-- A file attached to a command, to a given descriptor or to the operator's usual one. -/
structure Redirection where
  descriptor : Option UInt32
  operator : RedirectionOperator
  target : String
  deriving DecidableEq

/-- A command with its arguments and its redirections, each in the order written. -/
structure SimpleCommand where
  name : String
  arguments : List String
  redirections : List Redirection
  deriving DecidableEq

/-- The command without redirections whose name and arguments are the words of a text. -/
def SimpleCommand.ofWords (text : String) : SimpleCommand :=
  match words text with
  | [] => ⟨"", [], []⟩
  | name :: arguments => ⟨name, arguments, []⟩

/-- A command, or commands joined by an operator. In `terminated` nothing follows the separator. -/
inductive Node where
  | sequence (op : Separator) (lhs rhs : Node)
  | terminated (op : Separator) (lhs : Node)
  | conditional (op : Conditional) (lhs rhs : Node)
  | pipe (lhs rhs : Node)
  | simple (command : SimpleCommand)
  | subshell (nodes : List Node)

structure Program where
  nodes : List Node

/-! ## Operators on nodes -/

namespace ControlOperator

/-- Two operands joined by an operator. -/
def join : ControlOperator → Node → Node → Node
  | .separator op => .sequence op
  | .conditional op => .conditional op
  | .pipe => .pipe

/-- What an operator makes of its left operand when no right one follows. -/
def close? : ControlOperator → Node → Option Node
  | .separator op, lhs => some (.terminated op lhs)
  | .conditional _, _ => none
  | .pipe, _ => none

end ControlOperator

/-! ## Equality -/

mutual

/-- Whether two nodes are built in the same way from the same parts. -/
def Node.same : Node → Node → Bool
  | .sequence op lhs rhs, .sequence op' lhs' rhs' => op == op' && lhs.same lhs' && rhs.same rhs'
  | .terminated op lhs, .terminated op' lhs' => op == op' && lhs.same lhs'
  | .conditional op lhs rhs, .conditional op' lhs' rhs' =>
    op == op' && lhs.same lhs' && rhs.same rhs'
  | .pipe lhs rhs, .pipe lhs' rhs' => lhs.same lhs' && rhs.same rhs'
  | .simple command, .simple command' => command == command'
  | .subshell nodes, .subshell nodes' => Node.sameAll nodes nodes'
  | _, _ => false

def Node.sameAll : List Node → List Node → Bool
  | [], [] => true
  | node :: nodes, node' :: nodes' => node.same node' && Node.sameAll nodes nodes'
  | _, _ => false

end

mutual

theorem Node.same_iff (a b : Node) : a.same b = true ↔ a = b := by
  cases a <;> cases b <;> simp [Node.same, Node.same_iff, Node.sameAll_iff, and_assoc]

theorem Node.sameAll_iff (as bs : List Node) : Node.sameAll as bs = true ↔ as = bs := by
  cases as <;> cases bs <;> simp [Node.sameAll, Node.same_iff, Node.sameAll_iff]

end

instance : DecidableEq Node := fun a b ↦ decidable_of_iff _ (Node.same_iff a b)

instance : DecidableEq Program := fun a b ↦
  decidable_of_iff (a.nodes = b.nodes) (by cases a; cases b; simp)

end ShellLine
