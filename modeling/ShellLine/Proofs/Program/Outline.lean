import ShellLine.Proofs.Grammar.Attached
import ShellLine.Proofs.Grammar.LastOperator
import ShellLine.Proofs.Program.RoundTrip

/-!
# Outlines

The outline of a text is its control operators, and for each part between two of them the
words and the redirections, apart from each other. A program has the outline of its text.
It can be written from the outline alone, and what is written is read back as the same
program. So the outline determines the program.
-/

namespace ShellLine

/-! ## Outlines -/

/-- The words and the redirections between two control operators. -/
structure Part where
  words : List String
  redirections : List Redirection.Written
  deriving DecidableEq

/-- The control operators, and the parts in front of, between and behind them. -/
@[ext]
structure Outline where
  controls : List ControlOperator
  parts : List Part
  deriving DecidableEq

namespace Outline

def ofPart (part : Part) : Outline := ⟨[], [part]⟩

/-- Nothing was written, or nothing follows the last operator. -/
def nothing : Outline := ofPart ⟨[], []⟩

def join (op : ControlOperator) (left right : Outline) : Outline :=
  ⟨left.controls ++ op :: right.controls, left.parts ++ right.parts⟩

end Outline

/-! ### Of terminals -/

namespace Grammar

def control? (terminal : Terminal) : Option ControlOperator :=
  match terminal.kind with
  | .control op => some op
  | _ => none

/-- Targets are no free words, but part of their redirections. -/
def gather (terminals : List Terminal) : Part :=
  ⟨freeWords false terminals, writtenRedirections none terminals⟩

def outline (terminals : List Terminal) : Outline :=
  ⟨terminals.filterMap control?, (terminals.splitOnP (·.kind.isControl)).map gather⟩

end Grammar

/-- The outline of the tokens of a text. -/
def outlineOf (text : String) : Outline :=
  Grammar.outline ((tokenize text).map Token.terminal)

/-! ### Of programs -/

def SimpleCommand.part (command : SimpleCommand) : Part :=
  ⟨command.name :: command.arguments, command.redirections.map Redirection.written⟩

/-- The operators of a tree and its commands, from left to right. No text is read as a subshell. -/
def Node.outline : Node → Outline
  | .sequence op lhs rhs => .join (.separator op) lhs.outline rhs.outline
  | .terminated op lhs => .join (.separator op) lhs.outline .nothing
  | .conditional op lhs rhs => .join (.conditional op) lhs.outline rhs.outline
  | .pipe lhs rhs => .join .pipe lhs.outline rhs.outline
  | .simple command => .ofPart command.part
  | .subshell _ => .nothing

/-- The outline of the one tree that a text gives, if it gives any. -/
def Program.outline (program : Program) : Outline :=
  match program.nodes with
  | [] => .nothing
  | node :: _ => node.outline

/-! ## A program has the outline of its text -/

namespace Grammar

variable {terminals left right : List Terminal}

theorem outline_append_control (op : ControlOperator) (left right : List Terminal) :
    outline (left ++ .control op :: right) = .join op (outline left) (outline right) := by
  have hcontrol : (Terminal.control op).kind.isControl = true := rfl
  rw [outline, List.filterMap_append, List.splitOnP_append_cons left right hcontrol,
    List.map_append]
  rfl

/-- No control operator is among the terminals. -/
def Uncut (terminals : List Terminal) : Prop :=
  ∀ terminal ∈ terminals, terminal.kind.isControl = false

theorem Uncut.append (hleft : Uncut left) (hright : Uncut right) : Uncut (left ++ right) :=
  List.forall_mem_append.2 ⟨hleft, hright⟩

theorem Uncut.filterMap_control? (h : Uncut terminals) : terminals.filterMap control? = [] := by
  rw [List.filterMap_eq_nil_iff]
  intro terminal hmem
  have hfree := h terminal hmem
  unfold control?
  split
  · next op hop =>
    rw [hop] at hfree
    cases hfree
  · rfl

theorem Uncut.outline_eq (h : Uncut terminals) :
    outline terminals = .ofPart (gather terminals) := by
  rw [outline, h.filterMap_control?, List.splitOnP_eq_singleton h]
  rfl

theorem OperatorsBelow.uncut (h : OperatorsBelow 0 terminals) : Uncut terminals := by
  intro terminal hmem
  rw [Bool.eq_false_iff]
  intro hcontrol
  obtain ⟨op, hop⟩ := Token.Kind.isControl_iff.1 hcontrol
  exact Nat.not_lt_zero _ (h terminal hmem op hop)

theorem DerivesCommand.outline_eq {node : Node} (h : DerivesCommand terminals node) :
    outline terminals = node.outline := by
  cases h with
  | named name htail =>
    have hbelow : OperatorsBelow 0 (⟨.word, name⟩ :: _) :=
      operatorsBelow_cons (fun _ ↦ nofun) htail.operatorsBelow
    rw [hbelow.uncut.outline_eq, gather, freeWords_argument rfl, htail.freeWords_eq,
      (htail.writes.argument rfl).writtenRedirections_eq]
    rfl

theorem outline_join (op : ControlOperator) (lhs rhs : Node) :
    (op.join lhs rhs).outline = .join op lhs.outline rhs.outline := by
  cases op <;> rfl

theorem DerivesSequence.outline_eq {node : Node} (h : DerivesSequence terminals node) :
    outline terminals = node.outline := by
  refine h.of_joins (P := fun terminals node ↦ outline terminals = node.outline)
    DerivesCommand.outline_eq ?_ ?_
  · intro op left right lhs rhs hleft hright
    rw [outline_append_control, outline_join, hleft, hright]
  · intro op terminals lhs hlhs
    rw [outline_append_control, hlhs]
    rfl

theorem DerivesProgram.outline_eq {program : Program} (h : DerivesProgram terminals program) :
    outline terminals = program.outline := by
  cases h with
  | empty => rfl
  | sequence hsequence => exact hsequence.outline_eq

end Grammar

theorem outlineOf_eq_of_parse {text : String} {program : Program}
    (h : parse text = .ok program) : outlineOf text = program.outline :=
  (derivesProgram_of_parse h).outline_eq

/-! ## A program is written from its outline -/

open Grammar

/-- The operator behind its digits, and the target. -/
def Redirection.Written.pieces (written : Redirection.Written) : List String :=
  (written.number.getD "" ++ written.operator.spelling) :: written.target.toList

def Part.pieces (part : Part) : List String :=
  part.words ++ part.redirections.flatMap Redirection.Written.pieces

/-- Parts and operators in turn, one part more than there are operators. -/
def weave : List Part → List ControlOperator → List String
  | part :: parts, op :: ops => part.pieces ++ op.spelling :: weave parts ops
  | part :: _, [] => part.pieces
  | [], _ => []

def Outline.pieces (outline : Outline) : List String := weave outline.parts outline.controls

theorem weave_append {parts : List Part} {ops : List ControlOperator}
    (h : parts.length = ops.length + 1) (op : ControlOperator) (parts' : List Part)
    (ops' : List ControlOperator) :
    weave (parts ++ parts') (ops ++ op :: ops') =
      weave parts ops ++ op.spelling :: weave parts' ops' := by
  induction ops generalizing parts with
  | nil =>
    obtain ⟨part, rfl⟩ := List.length_eq_one_iff.1 h
    rfl
  | cons first ops ih =>
    cases parts with
    | nil => cases h
    | cons part parts =>
      have hlength : parts.length = ops.length + 1 := Nat.succ.inj h
      rw [List.cons_append, List.cons_append, weave, weave, ih hlength, List.append_assoc,
        List.cons_append]

/-- Every operator has a part behind it, and one part is in front of all. -/
def Outline.Balanced (outline : Outline) : Prop :=
  outline.parts.length = outline.controls.length + 1

theorem Outline.Balanced.join {left right : Outline} (hleft : left.Balanced)
    (hright : right.Balanced) (op : ControlOperator) : (Outline.join op left right).Balanced := by
  unfold Outline.Balanced Outline.join at *
  simp only [List.length_append, List.length_cons]
  omega

theorem Outline.Balanced.pieces_join {left : Outline} (h : left.Balanced) (right : Outline)
    (op : ControlOperator) :
    (Outline.join op left right).pieces = left.pieces ++ op.spelling :: right.pieces :=
  weave_append h op right.parts right.controls

theorem Redirection.pieces_written (redirection : Redirection) :
    redirection.written.pieces = redirection.pieces := by
  obtain ⟨descriptor, operator, target⟩ := redirection
  cases descriptor with
  | none =>
    change ["" ++ operator.spelling, target] = _
    rw [String.empty_append]
    rfl
  | some descriptor => rfl

theorem SimpleCommand.pieces_part (command : SimpleCommand) :
    command.part.pieces = command.pieces := by
  rw [Part.pieces, SimpleCommand.part, List.flatMap_map]
  simp only [Redirection.pieces_written]
  rfl

theorem Outline.balanced_ofPart (part : Part) : (Outline.ofPart part).Balanced := rfl

theorem Node.balanced_outline : ∀ node : Node, node.outline.Balanced
  | .sequence _ lhs rhs => lhs.balanced_outline.join rhs.balanced_outline _
  | .terminated _ lhs => lhs.balanced_outline.join (Outline.balanced_ofPart _) _
  | .conditional _ lhs rhs => lhs.balanced_outline.join rhs.balanced_outline _
  | .pipe lhs rhs => lhs.balanced_outline.join rhs.balanced_outline _
  | .simple _ => Outline.balanced_ofPart _
  | .subshell _ => Outline.balanced_ofPart _

theorem pieces_outline_join (op : ControlOperator) {lhs rhs : Node}
    (hleft : lhs.outline.pieces = lhs.pieces) (hright : rhs.outline.pieces = rhs.pieces) :
    (op.join lhs rhs).outline.pieces = (op.join lhs rhs).pieces := by
  rw [outline_join, lhs.balanced_outline.pieces_join, hleft, hright, pieces_join]

/-- The source form of a tree has nothing that is not in the outline. -/
theorem Node.pieces_outline : ∀ node : Node, node.outline.pieces = node.pieces
  | .sequence op lhs rhs =>
    pieces_outline_join (.separator op) lhs.pieces_outline rhs.pieces_outline
  | .terminated op lhs => by
    rw [outline, lhs.balanced_outline.pieces_join, lhs.pieces_outline]
    rfl
  | .conditional op lhs rhs =>
    pieces_outline_join (.conditional op) lhs.pieces_outline rhs.pieces_outline
  | .pipe lhs rhs => pieces_outline_join .pipe lhs.pieces_outline rhs.pieces_outline
  | .simple command => command.pieces_part
  | .subshell _ => rfl

theorem Program.Canonical.pieces_outline {program : Program} (h : program.Canonical) :
    program.outline.pieces = program.nodes.flatMap Node.pieces := by
  obtain ⟨nodes⟩ := program
  match nodes, h with
  | [], _ => rfl
  | [node], _ =>
    rw [List.flatMap_singleton]
    exact node.pieces_outline

/-! ## The outline determines the program -/

theorem Node.CanonicalRoot.pieces_ne_nil {node : Node} (h : node.CanonicalRoot) :
    node.pieces ≠ [] := by
  obtain ⟨terminals, hspells, hderives⟩ := h.hasSource
  obtain ⟨name, rest, rfl⟩ := hderives.exists_name
  intro hnone
  rw [hnone] at hspells
  cases hspells

theorem Node.CanonicalRoot.eq_of_pieces_eq {a b : Node} (ha : a.CanonicalRoot)
    (hb : b.CanonicalRoot) (h : a.pieces = b.pieces) : a = b := by
  obtain ⟨terminals, hspells, hderives⟩ := ha.hasSource
  obtain ⟨terminals', hspells', hderives'⟩ := hb.hasSource
  -- The pieces are one text, and its terminals are cut into one tree only.
  have hterminals : terminals = terminals' := by
    rw [← hspells.map_terminal_tokenize, ← hspells'.map_terminal_tokenize, h]
  calc a = splitTree terminals := (splitTree_of_derivesSequence hderives).symm
    _ = splitTree terminals' := by rw [hterminals]
    _ = b := splitTree_of_derivesSequence hderives'

theorem Program.Canonical.eq_of_outline_eq {a b : Program} (ha : a.Canonical) (hb : b.Canonical)
    (h : a.outline = b.outline) : a = b := by
  have hpieces : a.nodes.flatMap Node.pieces = b.nodes.flatMap Node.pieces := by
    rw [← ha.pieces_outline, ← hb.pieces_outline, h]
  obtain ⟨as⟩ := a
  obtain ⟨bs⟩ := b
  match as, bs, ha, hb with
  | [], [], _, _ => rfl
  | [], [node], _, ⟨_, hnode⟩ =>
    rw [List.flatMap_singleton] at hpieces
    exact absurd hpieces.symm (hnode node (List.mem_singleton_self node)).pieces_ne_nil
  | [node], [], ⟨_, hnode⟩, _ =>
    rw [List.flatMap_singleton] at hpieces
    exact absurd hpieces (hnode node (List.mem_singleton_self node)).pieces_ne_nil
  | [node], [node'], ⟨_, hnode⟩, ⟨_, hnode'⟩ =>
    rw [List.flatMap_singleton, List.flatMap_singleton] at hpieces
    have hroot := hnode node (List.mem_singleton_self node)
    have hroot' := hnode' node' (List.mem_singleton_self node')
    rw [hroot.eq_of_pieces_eq hroot' hpieces]

end ShellLine
