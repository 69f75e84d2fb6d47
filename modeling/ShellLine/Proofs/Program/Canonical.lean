import ShellLine.Program.Basic
import ShellLine.Proofs.Token.Lexicon

/-!
# Canonical programs and their source form

A program is written as pieces with one space between any two. A program is
canonical if its words are lexemes and its tree is one that left-associative
operators of three levels can write without brackets.

The grammar and the parser are not used here.
-/

namespace ShellLine

open Lexicon

/-! ## Source form -/

/-- The operator, with its descriptor in front of it, and the target. -/
def Redirection.pieces (redirection : Redirection) : List String :=
  match redirection.descriptor with
  | none => [redirection.operator.spelling, redirection.target]
  | some descriptor =>
    [toString descriptor.toNat ++ redirection.operator.spelling, redirection.target]

def SimpleCommand.pieces (command : SimpleCommand) : List String :=
  command.name :: (command.arguments ++ command.redirections.flatMap Redirection.pieces)

/-- Operands and operators in order. No text is read as a subshell, which is left out. -/
def Node.pieces : Node → List String
  | .sequence op lhs rhs => lhs.pieces ++ op.spelling :: rhs.pieces
  | .terminated op lhs => lhs.pieces ++ [op.spelling]
  | .conditional op lhs rhs => lhs.pieces ++ op.spelling :: rhs.pieces
  | .pipe lhs rhs => lhs.pieces ++ ControlOperator.pipe.spelling :: rhs.pieces
  | .simple command => command.pieces
  | .subshell _ => []

/-- A program in source form. -/
def Program.unparse (program : Program) : String :=
  " ".intercalate (program.nodes.flatMap Node.pieces)

/-! ## Canonical programs -/

namespace Node

/-- Whether a separator is on top, with something behind it or not. -/
def isSequence : Node → Bool
  | .sequence .. => true
  | .terminated .. => true
  | _ => false

def isSimple : Node → Bool
  | .simple _ => true
  | _ => false

/-- Whether no operator on top binds looser than a pipe. -/
def isPipeline : Node → Bool
  | .pipe .. => true
  | .simple _ => true
  | _ => false

end Node

/-- The target is a lexeme, and the descriptor a single digit. -/
def Redirection.Canonical (redirection : Redirection) : Prop :=
  (∀ descriptor ∈ redirection.descriptor, descriptor ≤ 9) ∧ IsWord redirection.target.toList

/-- All words are lexemes, and the name is not reserved. -/
def SimpleCommand.Canonical (command : SimpleCommand) : Prop :=
  (IsWord command.name.toList ∧ ∀ w ∈ ReservedWord.all, command.name ≠ w.spelling) ∧
    (∀ argument ∈ command.arguments, IsWord argument.toList) ∧
    ∀ redirection ∈ command.redirections, redirection.Canonical

/-- What may stand anywhere in a canonical program: every operator groups to the left. -/
def Node.Canonical : Node → Prop
  | .sequence _ lhs rhs => rhs.isSequence = false ∧ lhs.Canonical ∧ rhs.Canonical
  | .terminated _ _ => False
  | .conditional _ lhs rhs =>
    (lhs.isSequence = false ∧ rhs.isPipeline = true) ∧ lhs.Canonical ∧ rhs.Canonical
  | .pipe lhs rhs => (lhs.isPipeline = true ∧ rhs.isSimple = true) ∧ lhs.Canonical ∧ rhs.Canonical
  | .simple command => command.Canonical
  | .subshell _ => False

/-- Only at the root may nothing follow a separator. -/
def Node.CanonicalRoot : Node → Prop
  | .terminated _ lhs => lhs.Canonical
  | node => node.Canonical

theorem Node.Canonical.canonicalRoot {node : Node} (h : node.Canonical) : node.CanonicalRoot := by
  cases node with
  | terminated op lhs => exact h.elim
  | sequence op lhs rhs => exact h
  | conditional op lhs rhs => exact h
  | pipe lhs rhs => exact h
  | simple command => exact h
  | subshell nodes => exact h

/-- Nothing, or one canonical tree. -/
def Program.Canonical (program : Program) : Prop :=
  program.nodes.length ≤ 1 ∧ ∀ node ∈ program.nodes, node.CanonicalRoot

/-! ## Deciding what is canonical -/

instance Redirection.decidableCanonical (redirection : Redirection) :
    Decidable redirection.Canonical :=
  decidable_of_iff (redirection.descriptor.all (fun descriptor ↦ decide (descriptor ≤ 9)) = true ∧
    IsWord redirection.target.toList) (by
      cases h : redirection.descriptor <;> simp [Redirection.Canonical, h])

instance SimpleCommand.decidableCanonical (command : SimpleCommand) :
    Decidable command.Canonical :=
  inferInstanceAs (Decidable ((IsWord command.name.toList ∧
    ∀ w ∈ ReservedWord.all, command.name ≠ w.spelling) ∧
    (∀ argument ∈ command.arguments, IsWord argument.toList) ∧
    ∀ redirection ∈ command.redirections, redirection.Canonical))

instance Node.decidableCanonical : (node : Node) → Decidable node.Canonical
  | .sequence _ lhs rhs =>
    have := decidableCanonical lhs
    have := decidableCanonical rhs
    inferInstanceAs (Decidable (rhs.isSequence = false ∧ lhs.Canonical ∧ rhs.Canonical))
  | .terminated _ _ => inferInstanceAs (Decidable False)
  | .conditional _ lhs rhs =>
    have := decidableCanonical lhs
    have := decidableCanonical rhs
    inferInstanceAs (Decidable ((lhs.isSequence = false ∧ rhs.isPipeline = true) ∧
      lhs.Canonical ∧ rhs.Canonical))
  | .pipe lhs rhs =>
    have := decidableCanonical lhs
    have := decidableCanonical rhs
    inferInstanceAs (Decidable ((lhs.isPipeline = true ∧ rhs.isSimple = true) ∧
      lhs.Canonical ∧ rhs.Canonical))
  | .simple command => inferInstanceAs (Decidable command.Canonical)
  | .subshell _ => inferInstanceAs (Decidable False)

instance Node.decidableCanonicalRoot : (node : Node) → Decidable node.CanonicalRoot
  | .terminated _ lhs => inferInstanceAs (Decidable lhs.Canonical)
  | .sequence op lhs rhs => inferInstanceAs (Decidable (Node.sequence op lhs rhs).Canonical)
  | .conditional op lhs rhs => inferInstanceAs (Decidable (Node.conditional op lhs rhs).Canonical)
  | .pipe lhs rhs => inferInstanceAs (Decidable (Node.pipe lhs rhs).Canonical)
  | .simple command => inferInstanceAs (Decidable (Node.simple command).Canonical)
  | .subshell nodes => inferInstanceAs (Decidable (Node.subshell nodes).Canonical)

instance Program.decidableCanonical (program : Program) : Decidable program.Canonical :=
  inferInstanceAs (Decidable (program.nodes.length ≤ 1 ∧
    ∀ node ∈ program.nodes, node.CanonicalRoot))

end ShellLine
