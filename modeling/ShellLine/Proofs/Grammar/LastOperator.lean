import ShellLine.Proofs.Grammar.Parsing

/-!
# The tree of a program splits at the last loosest operator

Reading from left to right, with every chain grouped to the left, builds the tree
that cutting from the right builds: at the last separator if there is one, else at
the last conditional, else at the last pipe. What is left without operators is a
command, whose words and redirections are told by their neighbours.

The definitions here search whole lists and use neither readers nor derivations, nor the
tables of either.
-/

namespace ShellLine.Grammar

/-! ## Cutting at an operator -/

/-- An operator, and the terminals on both sides of it. -/
structure Cut where
  left : List Terminal
  op : ControlOperator
  right : List Terminal

/-- The operators to look for at a level. -/
def operators : Level → List ControlOperator
  | .sequence => [.separator .semicolon, .separator .ampersand]
  | .conditional => [.conditional .and, .conditional .or]
  | .pipeline => [.pipe]

theorem mem_operators_iff {level : Level} {op : ControlOperator} :
    op ∈ operators level ↔ op.level = level := by
  cases level <;> rcases op with (_ | _) | (_ | _) | _ <;> decide

/-- The cut at the last operator of a level. -/
def lastOf? (level : Level) : List Terminal → Option Cut
  | [] => none
  | terminal :: rest =>
    match lastOf? level rest with
    | some cut => some { cut with left := terminal :: cut.left }
    | none =>
      match terminal.kind with
      | .control op => if op ∈ operators level then some ⟨[], op, rest⟩ else none
      | _ => none

/-- The cut at the last operator of the loosest level that has one. -/
def loosest? (terminals : List Terminal) : Option Cut :=
  [Level.sequence, Level.conditional, Level.pipeline].findSome? fun level ↦
    lastOf? level terminals

theorem eq_append_of_lastOf? {level : Level} {terminals : List Terminal} {cut : Cut}
    (h : lastOf? level terminals = some cut) :
    ∃ terminal, terminals = cut.left ++ terminal :: cut.right := by
  induction terminals generalizing cut with
  | nil => cases h
  | cons terminal rest ih =>
    rw [lastOf?] at h
    split at h
    · next inner hinner =>
      obtain ⟨last, rfl⟩ := ih hinner
      cases h
      exact ⟨last, rfl⟩
    · split at h
      · split at h
        · cases h
          exact ⟨terminal, rfl⟩
        · cases h
      · cases h

theorem length_lt_of_loosest? {terminals : List Terminal} {cut : Cut}
    (h : loosest? terminals = some cut) :
    cut.left.length < terminals.length ∧ cut.right.length < terminals.length := by
  obtain ⟨level, -, hlast⟩ := List.exists_of_findSome?_eq_some h
  obtain ⟨terminal, rfl⟩ := eq_append_of_lastOf? hlast
  rw [List.length_append, List.length_cons]
  omega

/-! ## Commands by their neighbours -/

/-- The words and reserved words that have no redirection operator directly in front of them. -/
def freeWords (behindOperator : Bool) : List Terminal → List String
  | [] => []
  | terminal :: rest =>
    let others := freeWords terminal.kind.isRedirection rest
    if terminal.kind.isArgument && !behindOperator then terminal.value :: others else others

/-- The number that the terminal in front of an operator gives: its digits, read as decimal. -/
def numberBefore : Option Terminal → Option UInt32
  | some ⟨.ioNumber, value⟩ => some (.ofNat (Nat.ofDigitChars 10 value.toList 0))
  | _ => none

/-- Each redirection operator with the number in front of it and the terminal behind it. -/
def attachments (before : Option Terminal) : List Terminal → List Redirection
  | terminal :: target :: rest =>
    let others := attachments (some terminal) (target :: rest)
    match terminal.kind with
    | .redirection op => ⟨numberBefore before, op, target.value⟩ :: others
    | _ => others
  | _ => []

/-- The first free word is the name. -/
def commandOf (terminals : List Terminal) : SimpleCommand :=
  match freeWords false terminals with
  | [] => ⟨"", [], attachments none terminals⟩
  | name :: arguments => ⟨name, arguments, attachments none terminals⟩

/-- The tree that cutting at the last loosest operators gives. -/
def splitTree (terminals : List Terminal) : Node :=
  match _h : loosest? terminals with
  | none => .simple (commandOf terminals)
  | some ⟨left, .separator op, right⟩ =>
    if right = [] then .terminated op (splitTree left)
    else .sequence op (splitTree left) (splitTree right)
  | some ⟨left, .conditional op, right⟩ => .conditional op (splitTree left) (splitTree right)
  | some ⟨left, .pipe, right⟩ => .pipe (splitTree left) (splitTree right)
termination_by terminals.length
decreasing_by all_goals first
  | exact (length_lt_of_loosest? _h).1
  | exact (length_lt_of_loosest? _h).2

variable {terminals left right : List Terminal} {op : ControlOperator}

theorem splitTree_of_eq_none (h : loosest? terminals = none) :
    splitTree terminals = .simple (commandOf terminals) := by
  rw [splitTree]
  split <;> simp_all

theorem splitTree_of_eq_some (h : loosest? terminals = some ⟨left, op, right⟩)
    (hright : right ≠ []) :
    splitTree terminals = op.join (splitTree left) (splitTree right) := by
  rw [splitTree]
  cases op with
  | separator op => split <;> simp_all [ControlOperator.join]
  | conditional op => split <;> simp_all [ControlOperator.join]
  | pipe => split <;> simp_all [ControlOperator.join]

theorem splitTree_of_closed {op : Separator}
    (h : loosest? terminals = some ⟨left, .separator op, []⟩) :
    splitTree terminals = .terminated op (splitTree left) := by
  rw [splitTree]
  split <;> simp_all

/-! ## Which operators a chain holds -/

/-- How loosely a level binds. -/
def looseness : Level → Nat
  | .pipeline => 0
  | .conditional => 1
  | .sequence => 2

/-- All operators in the terminals are of the tightest levels. -/
def OperatorsBelow (bound : Nat) (terminals : List Terminal) : Prop :=
  ∀ terminal ∈ terminals, ∀ op, terminal.kind = .control op → looseness op.level < bound

theorem OperatorsBelow.mono {bound bound' : Nat} (h : OperatorsBelow bound terminals)
    (hle : bound ≤ bound') : OperatorsBelow bound' terminals :=
  fun terminal hmem op hop ↦ Nat.lt_of_lt_of_le (h terminal hmem op hop) hle

theorem lastOf?_eq_none {level : Level} (h : OperatorsBelow (looseness level) terminals) :
    lastOf? level terminals = none := by
  induction terminals with
  | nil => rfl
  | cons terminal rest ih =>
    obtain ⟨hfirst, hrest⟩ := List.forall_mem_cons.1 h
    rw [lastOf?, ih hrest]
    cases hkind : terminal.kind with
    | control op =>
      have hother : op ∉ operators level := by
        rw [mem_operators_iff]
        rintro rfl
        exact Nat.lt_irrefl _ (hfirst op hkind)
      exact if_neg hother
    | _ => rfl

theorem lastOf?_append_cons {level : Level} (hlevel : op.level = level)
    (hright : OperatorsBelow (looseness level) right) (left : List Terminal) :
    lastOf? level (left ++ .control op :: right) = some ⟨left, op, right⟩ := by
  induction left with
  | nil =>
    rw [List.nil_append, lastOf?, lastOf?_eq_none hright]
    exact if_pos (mem_operators_iff.2 hlevel)
  | cons terminal left ih => rw [List.cons_append, lastOf?, ih]

theorem loosest?_eq_none (h : OperatorsBelow 0 terminals) : loosest? terminals = none := by
  refine List.findSome?_eq_none_iff.2 fun level _ ↦ ?_
  exact lastOf?_eq_none (h.mono (Nat.zero_le _))

/-- Looser levels have no operator at all, so the last one of this level is where to cut. -/
theorem loosest?_append_cons (hleft : OperatorsBelow (looseness op.level + 1) left)
    (hright : OperatorsBelow (looseness op.level) right) :
    loosest? (left ++ .control op :: right) = some ⟨left, op, right⟩ := by
  have hlast := lastOf?_append_cons rfl hright left
  have hwhole : OperatorsBelow (looseness op.level + 1) (left ++ .control op :: right) := by
    refine List.forall_mem_append.2 ⟨hleft, List.forall_mem_cons.2 ⟨?_, ?_⟩⟩
    · rintro _ ⟨⟩
      exact Nat.lt_succ_self _
    · exact hright.mono (Nat.le_succ _)
  have hlooser : ∀ level, looseness op.level < looseness level →
      lastOf? level (left ++ .control op :: right) = none :=
    fun level hlt ↦ lastOf?_eq_none (hwhole.mono hlt)
  generalize op.level = level at hlast hlooser
  cases level with
  | sequence => simp only [loosest?, List.findSome?_cons, hlast]
  | conditional =>
    have hsequence := hlooser .sequence (by decide)
    simp only [loosest?, List.findSome?_cons, hsequence, hlast]
  | pipeline =>
    have hsequence := hlooser .sequence (by decide)
    have hconditional := hlooser .conditional (by decide)
    simp only [loosest?, List.findSome?_cons, hsequence, hconditional, hlast]

/-! ## Commands -/

theorem not_isRedirection_of_isArgument {terminal : Terminal}
    (h : terminal.kind.isArgument = true) : terminal.kind.isRedirection = false := by
  cases hkind : terminal.kind <;> simp_all [Token.Kind.isArgument, Token.Kind.isRedirection]

theorem numberBefore_of_isArgument {terminal : Terminal} (h : terminal.kind.isArgument = true) :
    numberBefore (some terminal) = none := by
  obtain ⟨kind, value⟩ := terminal
  cases kind <;> first | rfl | cases h

theorem numberBefore_number (descriptor : UInt32) :
    numberBefore (some ⟨.ioNumber, toString descriptor.toNat⟩) = some descriptor := by
  rw [numberBefore, Text.toList_toString, Nat.ofDigitChars_ten_toDigits, UInt32.ofNat_toNat]

theorem freeWords_argument {terminal : Terminal} (h : terminal.kind.isArgument = true)
    (rest : List Terminal) :
    freeWords false (terminal :: rest) = terminal.value :: freeWords false rest := by
  simp [freeWords, h, not_isRedirection_of_isArgument h]

theorem freeWords_target {terminal : Terminal} (h : terminal.kind.isArgument = true)
    (rest : List Terminal) : freeWords true (terminal :: rest) = freeWords false rest := by
  simp [freeWords, not_isRedirection_of_isArgument h]

theorem attachments_argument {terminal : Terminal} (h : terminal.kind.isArgument = true)
    (before : Option Terminal) (rest : List Terminal) :
    attachments before (terminal :: rest) = attachments (some terminal) rest := by
  cases rest with
  | nil => rfl
  | cons next rest =>
    cases hkind : terminal.kind <;> simp_all [attachments, Token.Kind.isArgument]

theorem DerivesRedirection.freeWords_append {written : List Terminal} {redirection : Redirection}
    (h : DerivesRedirection written redirection) (rest : List Terminal) :
    freeWords false (written ++ rest) = freeWords false rest := by
  cases h with
  | plain op htarget => exact freeWords_target htarget rest
  | numbered descriptor op htarget => exact freeWords_target htarget rest

theorem DerivesRedirection.exists_attachments_append {written : List Terminal}
    {redirection : Redirection} (h : DerivesRedirection written redirection)
    {before : Option Terminal} (hbefore : numberBefore before = none) (rest : List Terminal) :
    ∃ target : Terminal, target.kind.isArgument = true ∧
      attachments before (written ++ rest) =
        redirection :: attachments (some target) rest := by
  cases h with
  | @plain op target htarget =>
    refine ⟨target, htarget, ?_⟩
    rw [← attachments_argument htarget (some (.redirection op)), ← hbefore]
    rfl
  | @numbered descriptor op target htarget =>
    refine ⟨target, htarget, ?_⟩
    rw [← attachments_argument htarget (some (.redirection op)),
      ← numberBefore_number descriptor]
    rfl

theorem DerivesTail.freeWords_append {arguments : List String} {redirections : List Redirection}
    (h : DerivesTail terminals arguments redirections) (rest : List Terminal) :
    freeWords false (terminals ++ rest) = arguments ++ freeWords false rest := by
  induction h with
  | nil => rfl
  | argument hargument _ ih =>
    rw [List.cons_append, freeWords_argument hargument, ih]
    rfl
  | redirection hhead _ ih => rw [List.append_assoc, hhead.freeWords_append, ih]

theorem DerivesTail.freeWords_eq {arguments : List String} {redirections : List Redirection}
    (h : DerivesTail terminals arguments redirections) : freeWords false terminals = arguments := by
  have hwhole := h.freeWords_append []
  rw [List.append_nil, freeWords, List.append_nil] at hwhole
  exact hwhole

theorem DerivesTail.attachments_eq {arguments : List String} {redirections : List Redirection}
    (h : DerivesTail terminals arguments redirections) {before : Option Terminal}
    (hbefore : numberBefore before = none) : attachments before terminals = redirections := by
  induction h generalizing before with
  | nil => rfl
  | argument hargument _ ih =>
    rw [attachments_argument hargument]
    exact ih (numberBefore_of_isArgument hargument)
  | @redirection written rest _ _ _ hhead _ ih =>
    obtain ⟨target, htarget, hfirst⟩ := hhead.exists_attachments_append hbefore rest
    rw [hfirst, ih (numberBefore_of_isArgument htarget)]

/-- A terminal that is no control operator stands below every bound. -/
theorem operatorsBelow_cons {bound : Nat} {terminal : Terminal} {rest : List Terminal}
    (hterminal : ∀ op, terminal.kind ≠ .control op) (hrest : OperatorsBelow bound rest) :
    OperatorsBelow bound (terminal :: rest) :=
  List.forall_mem_cons.2 ⟨fun op hop ↦ absurd hop (hterminal op), hrest⟩

theorem ne_control_of_isArgument {terminal : Terminal} (h : terminal.kind.isArgument = true)
    (op : ControlOperator) : terminal.kind ≠ .control op := by
  intro hop
  rw [hop] at h
  cases h

theorem DerivesRedirection.operatorsBelow {redirection : Redirection}
    (h : DerivesRedirection terminals redirection) : OperatorsBelow 0 terminals := by
  have hlast : ∀ {target : Terminal}, target.kind.isArgument = true → OperatorsBelow 0 [target] :=
    fun htarget ↦ operatorsBelow_cons (ne_control_of_isArgument htarget) nofun
  cases h with
  | plain op htarget => exact operatorsBelow_cons (fun _ ↦ nofun) (hlast htarget)
  | numbered descriptor op htarget =>
    exact operatorsBelow_cons (fun _ ↦ nofun) (operatorsBelow_cons (fun _ ↦ nofun) (hlast htarget))

theorem DerivesTail.operatorsBelow {arguments : List String} {redirections : List Redirection}
    (h : DerivesTail terminals arguments redirections) : OperatorsBelow 0 terminals := by
  induction h with
  | nil => exact nofun
  | argument hargument _ ih => exact operatorsBelow_cons (ne_control_of_isArgument hargument) ih
  | redirection hhead _ ih => exact List.forall_mem_append.2 ⟨hhead.operatorsBelow, ih⟩

/-! ## Derived trees are split trees -/

/-- What is derived is the split tree of its terminals, which hold operators of the tightest
levels only. -/
def DerivesSplit (bound : Nat) (Derives : List Terminal → Node → Prop) : Prop :=
  ∀ ⦃terminals : List Terminal⦄ ⦃node : Node⦄, Derives terminals node →
    splitTree terminals = node ∧ OperatorsBelow bound terminals ∧ terminals ≠ []

theorem derivesSplit_command : DerivesSplit (looseness .pipeline) DerivesCommand := by
  intro terminals node h
  cases h with
  | named name htail =>
    have hbelow : OperatorsBelow 0 (⟨.word, name⟩ :: _) :=
      operatorsBelow_cons (fun _ ↦ nofun) htail.operatorsBelow
    refine ⟨?_, hbelow, List.cons_ne_nil _ _⟩
    rw [splitTree_of_eq_none (loosest?_eq_none hbelow), commandOf, freeWords_argument rfl,
      attachments_argument rfl, htail.freeWords_eq, htail.attachments_eq rfl]

/-- The last join of a chain is at the last operator of the level. -/
theorem DerivesSplit.chain {level : Level} {Operand : List Terminal → Node → Prop}
    (hoperand : DerivesSplit (looseness level) Operand) :
    DerivesSplit (looseness level + 1) (DerivesChain level Operand) := by
  intro terminals node h
  induction h with
  | operand h =>
    obtain ⟨htree, hbelow, hne⟩ := hoperand h
    exact ⟨htree, hbelow.mono (Nat.le_succ _), hne⟩
  | joined hjoins _ hright ih =>
    obtain ⟨rfl, rfl⟩ := joins_iff.1 hjoins
    obtain ⟨hleft, hleftBelow, -⟩ := ih
    obtain ⟨htree, hbelow, hne⟩ := hoperand hright
    refine ⟨?_, ?_, List.append_ne_nil_of_right_ne_nil _ (List.cons_ne_nil _ _)⟩
    · rw [splitTree_of_eq_some (loosest?_append_cons hleftBelow hbelow) hne, hleft, htree]
    · refine List.forall_mem_append.2 ⟨hleftBelow, List.forall_mem_cons.2 ⟨?_, ?_⟩⟩
      · rintro _ ⟨⟩
        exact Nat.lt_succ_self _
      · exact hbelow.mono (Nat.le_succ _)

theorem derivesSplit_separated :
    DerivesSplit (looseness .sequence + 1) (DerivesChain .sequence DerivesConditional) := by
  have hpipeline : DerivesSplit (looseness .conditional) DerivesPipeline :=
    derivesSplit_command.chain
  have hconditional : DerivesSplit (looseness .sequence) DerivesConditional := hpipeline.chain
  exact hconditional.chain

theorem splitTree_of_derivesSequence {node : Node} (h : DerivesSequence terminals node) :
    splitTree terminals = node := by
  cases h with
  | chain h => exact (derivesSplit_separated h).1
  | closed op h =>
    obtain ⟨htree, hbelow, -⟩ := derivesSplit_separated h
    have hcut : loosest? (_ ++ [.control (.separator op)]) = some ⟨_, .separator op, []⟩ :=
      loosest?_append_cons hbelow nofun
    rw [splitTree_of_closed hcut, htree]

end ShellLine.Grammar

namespace ShellLine

open Grammar

/-- A text without tokens is the empty program. Any other program is the tree that comes of cutting
the tokens at the last loosest operator. -/
theorem nodes_eq_splitTree_of_parse {text : String} {program : Program}
    (h : parse text = .ok program) :
    program.nodes =
      if tokenize text = [] then [] else [splitTree ((tokenize text).map Token.terminal)] := by
  have hderives := derivesProgram_of_parse h
  have hnone : tokenize text = [] ↔ (tokenize text).map Token.terminal = [] :=
    List.map_eq_nil_iff.symm
  simp only [hnone]
  generalize (tokenize text).map Token.terminal = terminals at hderives ⊢
  cases hderives with
  | empty => rfl
  | sequence hsequence =>
    obtain ⟨name, rest, hname⟩ := hsequence.exists_name
    have hne : terminals ≠ [] := by
      rw [hname]
      exact List.cons_ne_nil _ _
    rw [if_neg hne, splitTree_of_derivesSequence hsequence]

theorem nodes_eq_splitTree_of_mixed_levels :
    ∃ program, parse "a | b && c 1> x || d & e | f ; g 12>&2 then ;" = .ok program ∧
      program.nodes = if tokenize "a | b && c 1> x || d & e | f ; g 12>&2 then ;" = [] then []
        else [splitTree ((tokenize "a | b && c 1> x || d & e | f ; g 12>&2 then ;").map
          Token.terminal)] := by
  have h : parse "a | b && c 1> x || d & e | f ; g 12>&2 then ;" = .ok
      ⟨[.terminated .semicolon
        (.sequence .semicolon
          (.sequence .ampersand
            (.conditional .or
              (.conditional .and
                (.pipe (.simple ⟨"a", [], []⟩) (.simple ⟨"b", [], []⟩))
                (.simple ⟨"c", [], [⟨some 1, .write, "x"⟩]⟩))
              (.simple ⟨"d", [], []⟩))
            (.pipe (.simple ⟨"e", [], []⟩) (.simple ⟨"f", [], []⟩)))
          (.simple ⟨"g", ["12", "then"], [⟨none, .duplicateOutput, "2"⟩]⟩))]⟩ := by
    decide +kernel
  exact ⟨_, h, nodes_eq_splitTree_of_parse h⟩

end ShellLine
