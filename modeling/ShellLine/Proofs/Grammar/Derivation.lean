import ShellLine.Program.Basic
import ShellLine.Proofs.Token.Terminal

/-!
# The grammar of programs

What a list of terminals says is given by derivations. An operator of a level
joins the chain in front of it to the one operand behind it, so that every chain
groups to the left. Only a whole input may end in an operator, and only in a
separator.

The derivations mention neither the readers nor the order in which tokens are
looked at. Which operators a level has, and what they make of their operands, is said
here once more, and is then proved to be what the readers go by.
-/

namespace ShellLine.Grammar

/-- `[NUMBER] OPERATOR TARGET`, where a word or a reserved word is the target. -/
inductive DerivesRedirection : List Terminal → Redirection → Prop
  | plain (op : RedirectionOperator) {target : Terminal} (h : target.kind.isArgument = true) :
      DerivesRedirection [.redirection op, target] ⟨none, op, target.value⟩
  | numbered (descriptor : UInt32) (op : RedirectionOperator) {target : Terminal}
      (h : target.kind.isArgument = true) :
      DerivesRedirection
        [⟨.ioNumber, toString descriptor.toNat⟩, .redirection op, target]
        ⟨some descriptor, op, target.value⟩

/-- `(WORD | RESERVED | REDIRECTION)*`, with the arguments apart from the redirections. -/
inductive DerivesTail : List Terminal → List String → List Redirection → Prop
  | nil : DerivesTail [] [] []
  | argument {terminal : Terminal} {terminals : List Terminal} {arguments : List String}
      {redirections : List Redirection} (h : terminal.kind.isArgument = true)
      (tail : DerivesTail terminals arguments redirections) :
      DerivesTail (terminal :: terminals) (terminal.value :: arguments) redirections
  | redirection {written terminals : List Terminal} {arguments : List String}
      {redirection : Redirection} {redirections : List Redirection}
      (head : DerivesRedirection written redirection)
      (tail : DerivesTail terminals arguments redirections) :
      DerivesTail (written ++ terminals) arguments (redirection :: redirections)

/-- `WORD TAIL`, where the word is the name. -/
inductive DerivesCommand : List Terminal → Node → Prop
  | named (name : String) {terminals : List Terminal} {arguments : List String}
      {redirections : List Redirection} (tail : DerivesTail terminals arguments redirections) :
      DerivesCommand (⟨.word, name⟩ :: terminals) (.simple ⟨name, arguments, redirections⟩)

/-- The operators of each level, and the node that each of them makes of its operands. -/
inductive Joins : Level → ControlOperator → Node → Node → Node → Prop
  | pipe (lhs rhs : Node) : Joins .pipeline .pipe lhs rhs (.pipe lhs rhs)
  | conditional (op : Conditional) (lhs rhs : Node) :
      Joins .conditional (.conditional op) lhs rhs (.conditional op lhs rhs)
  | separator (op : Separator) (lhs rhs : Node) :
      Joins .sequence (.separator op) lhs rhs (.sequence op lhs rhs)

/-- `OPERAND (OPERATOR OPERAND)*`, where the operators are those of one level. -/
inductive DerivesChain (level : Level) (Operand : List Terminal → Node → Prop) :
    List Terminal → Node → Prop
  | operand {terminals : List Terminal} {node : Node} (h : Operand terminals node) :
      DerivesChain level Operand terminals node
  | joined {op : ControlOperator} {left right : List Terminal} {lhs rhs node : Node}
      (hjoins : Joins level op lhs rhs node) (hleft : DerivesChain level Operand left lhs)
      (hright : Operand right rhs) :
      DerivesChain level Operand (left ++ .control op :: right) node

/-- Commands joined by pipes. -/
def DerivesPipeline : List Terminal → Node → Prop := DerivesChain .pipeline DerivesCommand

/-- Pipelines joined by conditionals. -/
def DerivesConditional : List Terminal → Node → Prop := DerivesChain .conditional DerivesPipeline

/-- Conditionals joined by separators. A separator may stand at the end. -/
inductive DerivesSequence : List Terminal → Node → Prop
  | chain {terminals : List Terminal} {node : Node}
      (h : DerivesChain .sequence DerivesConditional terminals node) :
      DerivesSequence terminals node
  | closed (op : Separator) {terminals : List Terminal} {lhs : Node}
      (h : DerivesChain .sequence DerivesConditional terminals lhs) :
      DerivesSequence (terminals ++ [.control (.separator op)]) (.terminated op lhs)

/-- Nothing, or one sequence. -/
inductive DerivesProgram : List Terminal → Program → Prop
  | empty : DerivesProgram [] ⟨[]⟩
  | sequence {terminals : List Terminal} {node : Node} (h : DerivesSequence terminals node) :
      DerivesProgram terminals ⟨[node]⟩

/-! ## The operators of the readers -/

/-- The readers know the operators of a level by the same table. -/
theorem joins_iff {level : Level} {op : ControlOperator} {lhs rhs node : Node} :
    Joins level op lhs rhs node ↔ op.level = level ∧ node = op.join lhs rhs := by
  constructor
  · intro h
    cases h with
    | pipe => exact ⟨rfl, rfl⟩
    | conditional op => exact ⟨rfl, rfl⟩
    | separator op => exact ⟨rfl, rfl⟩
  · rintro ⟨rfl, rfl⟩
    cases op with
    | separator op => exact .separator op lhs rhs
    | conditional op => exact .conditional op lhs rhs
    | pipe => exact .pipe lhs rhs

theorem DerivesChain.join {level : Level} {Operand : List Terminal → Node → Prop}
    (op : ControlOperator) {left right : List Terminal} {lhs rhs : Node}
    (hlevel : op.level = level) (hleft : DerivesChain level Operand left lhs)
    (hright : Operand right rhs) :
    DerivesChain level Operand (left ++ .control op :: right) (op.join lhs rhs) :=
  .joined (joins_iff.2 ⟨hlevel, rfl⟩) hleft hright

/-! ## Everything but the empty program begins with a word -/

theorem DerivesCommand.exists_name {terminals : List Terminal} {node : Node}
    (h : DerivesCommand terminals node) : ∃ name rest, terminals = ⟨.word, name⟩ :: rest := by
  cases h with
  | named name => exact ⟨name, _, rfl⟩

theorem DerivesChain.exists_name {level : Level} {Operand : List Terminal → Node → Prop}
    (hoperand : ∀ {terminals node}, Operand terminals node →
      ∃ name rest, terminals = ⟨.word, name⟩ :: rest)
    {terminals : List Terminal} {node : Node} (h : DerivesChain level Operand terminals node) :
    ∃ name rest, terminals = ⟨.word, name⟩ :: rest := by
  induction h with
  | operand h => exact hoperand h
  | joined _ _ _ ih =>
    obtain ⟨name, rest, rfl⟩ := ih
    exact ⟨name, _, rfl⟩

theorem DerivesPipeline.exists_name {terminals : List Terminal} {node : Node}
    (h : DerivesPipeline terminals node) : ∃ name rest, terminals = ⟨.word, name⟩ :: rest :=
  DerivesChain.exists_name DerivesCommand.exists_name h

theorem DerivesConditional.exists_name {terminals : List Terminal} {node : Node}
    (h : DerivesConditional terminals node) : ∃ name rest, terminals = ⟨.word, name⟩ :: rest :=
  DerivesChain.exists_name DerivesPipeline.exists_name h

theorem DerivesSequence.exists_name {terminals : List Terminal} {node : Node}
    (h : DerivesSequence terminals node) : ∃ name rest, terminals = ⟨.word, name⟩ :: rest := by
  cases h with
  | chain h => exact DerivesChain.exists_name DerivesConditional.exists_name h
  | closed op h =>
    obtain ⟨name, rest, rfl⟩ := DerivesChain.exists_name DerivesConditional.exists_name h
    exact ⟨name, _, rfl⟩

/-! ## Induction on the operators -/

/-- What holds of all operands and is kept by every join holds of all chains. -/
theorem DerivesChain.of_joins {P : List Terminal → Node → Prop}
    (join : ∀ (op : ControlOperator) {left right : List Terminal} {lhs rhs : Node},
      P left lhs → P right rhs → P (left ++ .control op :: right) (op.join lhs rhs))
    {level : Level} {Operand : List Terminal → Node → Prop}
    (operand : ∀ {terminals node}, Operand terminals node → P terminals node)
    {terminals : List Terminal} {node : Node} (h : DerivesChain level Operand terminals node) :
    P terminals node := by
  induction h with
  | operand h => exact operand h
  | @joined op _ _ _ _ _ hjoins _ hright ih =>
    obtain ⟨-, rfl⟩ := joins_iff.1 hjoins
    exact join op ih (operand hright)

/-- A property of all commands that every operator keeps, no matter at which level, is one of all
sequences. -/
theorem DerivesSequence.of_joins {P : List Terminal → Node → Prop}
    (command : ∀ {terminals node}, DerivesCommand terminals node → P terminals node)
    (join : ∀ (op : ControlOperator) {left right : List Terminal} {lhs rhs : Node},
      P left lhs → P right rhs → P (left ++ .control op :: right) (op.join lhs rhs))
    (closed : ∀ (op : Separator) {terminals : List Terminal} {lhs : Node},
      P terminals lhs → P (terminals ++ [.control (.separator op)]) (.terminated op lhs))
    {terminals : List Terminal} {node : Node} (h : DerivesSequence terminals node) :
    P terminals node := by
  have hpipeline : ∀ {terminals node}, DerivesPipeline terminals node → P terminals node :=
    DerivesChain.of_joins join command
  have hconditional : ∀ {terminals node}, DerivesConditional terminals node → P terminals node :=
    DerivesChain.of_joins join hpipeline
  cases h with
  | chain h => exact h.of_joins join hconditional
  | closed op h => exact closed op (h.of_joins join hconditional)

/-! ## The top of a derivation -/

variable {terminals : List Terminal} {node : Node}

theorem DerivesProgram.eq_nil (h : DerivesProgram terminals ⟨[]⟩) : terminals = [] := by
  cases h
  rfl

theorem DerivesProgram.derivesSequence (h : DerivesProgram terminals ⟨[node]⟩) :
    DerivesSequence terminals node := by
  cases h
  assumption

/-- A sequence that does not end in a separator is a chain. -/
theorem DerivesSequence.derivesChain (h : DerivesSequence terminals node)
    (hopen : ∀ op lhs, node ≠ .terminated op lhs) :
    DerivesChain .sequence DerivesConditional terminals node := by
  cases h with
  | chain hchain => exact hchain
  | @closed op _ lhs hchain => exact absurd rfl (hopen op lhs)

end ShellLine.Grammar
