import ShellLine.Grammar.Chain
import ShellLine.Proofs.Grammar.Command

/-!
# Chains are read as derived

A level hands on what its operand reads. If the operand is read as derived up to
some operators, the chain is read as derived up to those of them that are of
another level. The invariant of the loop is that the tokens taken so far derive
the left operand. The same argument serves all three levels.
-/

namespace ShellLine.Grammar

/-! ## Steps of a chain -/

variable {level : Level} {operand : Reader Node} {lhs rhs node : Node} {token : Token}
  {rest after : List Token} {op : ControlOperator}

/-- In front of an operator of another level the chain ends. -/
theorem chainFrom_of_stopsAt {tokens : List Token}
    (h : StopsAt (fun op ↦ op.level ≠ level) tokens) :
    chainFrom level operand lhs tokens = .ok (lhs, tokens) := by
  cases tokens with
  | nil => rw [chainFrom]
  | cons token rest =>
    obtain ⟨op, hop, hlevel⟩ := h
    rw [chainFrom]
    simp [hop, hlevel]

/-- An operator of the level with a right operand makes the chain longer. -/
theorem chainFrom_join (hop : token.kind = .control op) (hlevel : op.level = level)
    (hahead : controlAhead? rest = none) (hread : operand.read rest = .ok (some (rhs, after))) :
    chainFrom level operand lhs (token :: rest) =
      chainFrom level operand (op.join lhs rhs) after := by
  rw [chainFrom]
  simp only [hop, if_pos hlevel, hahead]
  split <;> simp_all

theorem chainFrom_close (hop : token.kind = .control op) (hlevel : op.level = level)
    (hahead : controlAhead? rest = none) (hread : operand.read rest = .ok none)
    (hclose : op.close? lhs = some node) :
    chainFrom level operand lhs (token :: rest) = .ok (node, rest) := by
  rw [chainFrom]
  simp only [hop, if_pos hlevel, hahead]
  split <;> simp_all

/-! ## Reading what is derived -/

/-- A reader that takes what derives its value, up to operators of a certain sort. -/
structure Reads (reader : Reader Node) (Derives : List Terminal → Node → Prop)
    (p : ControlOperator → Prop) : Prop where
  sound : ∀ {tokens rest : List Token} {node : Node}, WellFormed tokens →
    reader.read tokens = .ok (some (node, rest)) →
      ∃ read, tokens = read ++ rest ∧ Derives (read.map Token.terminal) node ∧ StopsAt p rest
  complete : ∀ {tokens rest : List Token} {node : Node},
    Derives (tokens.map Token.terminal) node → StopsAt p rest →
      reader.read (tokens ++ rest) = .ok (some (node, rest))
  exists_name : ∀ {terminals : List Terminal} {node : Node}, Derives terminals node →
    ∃ name rest, terminals = ⟨.word, name⟩ :: rest
  eq_none_iff : ∀ {tokens : List Token}, reader.read tokens = .ok none ↔ tokens = []

theorem reads_command : Reads command DerivesCommand (fun _ ↦ True) where
  sound := readCommand_sound
  complete := readCommand_complete
  exists_name := DerivesCommand.exists_name
  eq_none_iff := readCommand_eq_none_iff

/-- A chain with one more operator behind it, which closes it. -/
inductive DerivesClosed (level : Level) (Operand : List Terminal → Node → Prop) :
    List Terminal → Node → Prop
  | close (op : ControlOperator) {terminals : List Terminal} {lhs node : Node}
      (hlevel : op.level = level) (hclose : op.close? lhs = some node)
      (h : DerivesChain level Operand terminals lhs) :
      DerivesClosed level Operand (terminals ++ [.control op]) node

section Chain

variable {Derives : List Terminal → Node → Prop} {p : ControlOperator → Prop}

theorem controlAhead?_of_exists_name (hreads : Reads operand Derives p) {read : List Token}
    (h : Derives (read.map Token.terminal) node) (rest : List Token) :
    controlAhead? (read ++ rest) = none := by
  obtain ⟨name, more, hcons⟩ := hreads.exists_name h
  obtain ⟨token, behind, rfl, hname, -⟩ := List.map_eq_cons_iff.1 hcons
  have hword : token.kind = .word := congrArg Terminal.kind hname
  simp [controlAhead?, hword, Token.Kind.isControl]

/-- If some tokens derive the left operand, these and the ones taken derive the result. -/
theorem chainFrom_sound (hreads : Reads operand Derives p) {tokens : List Token}
    (hformed : WellFormed tokens) (hstops : StopsAt p tokens)
    (h : chainFrom level operand lhs tokens = .ok (node, rest)) {start : List Terminal}
    (hstart : DerivesChain level Derives start lhs) :
    ∃ read, tokens = read ++ rest ∧
      (DerivesChain level Derives (start ++ read.map Token.terminal) node ∧
          StopsAt (fun op ↦ p op ∧ op.level ≠ level) rest ∨
        DerivesClosed level Derives (start ++ read.map Token.terminal) node ∧ rest = []) := by
  fun_induction chainFrom level operand lhs tokens generalizing start with
  | case1 =>
    cases h
    refine ⟨[], rfl, .inl ⟨?_, trivial⟩⟩
    rw [List.map_nil, List.append_nil]
    exact hstart
  | case2 => cases h
  | case3 => cases h
  | case4 lhs token behind op hop hlevel _ rhs after hread ih =>
    obtain ⟨read, rfl, hright, hafter⟩ := hreads.sound hformed.2.2 hread
    have hcontrol := hformed.1.eq_control hop
    have hjoined := hstart.join op hlevel hright
    obtain ⟨more, rfl, hmore⟩ := ih hformed.2.2.of_append hafter h hjoined
    refine ⟨token :: read ++ more, by simp, ?_⟩
    rw [List.append_assoc, ← hcontrol] at hmore
    rw [List.map_append, List.map_cons]
    exact hmore
  | case5 lhs token behind op hop hlevel _ hread node hclose =>
    cases h
    obtain rfl := hreads.eq_none_iff.1 hread
    have hcontrol := hformed.1.eq_control hop
    refine ⟨[token], rfl, .inr ⟨?_, rfl⟩⟩
    rw [List.map_singleton, hcontrol]
    exact .close op hlevel hclose hstart
  | case6 => cases h
  | case7 lhs token behind op hop hlevel =>
    cases h
    obtain ⟨op', hop', hp⟩ := hstops
    obtain rfl : op' = op := Token.Kind.control.inj (hop'.symm.trans hop)
    refine ⟨[], rfl, .inl ⟨?_, op', hop', hp, hlevel⟩⟩
    rw [List.map_nil, List.append_nil]
    exact hstart
  | case8 lhs token behind hkind =>
    obtain ⟨op, hop, -⟩ := hstops
    exact absurd hop (hkind op)

theorem readChain_sound (hreads : Reads operand Derives p) {tokens : List Token}
    (hformed : WellFormed tokens)
    (h : readChain level operand tokens = .ok (some (node, rest))) :
    ∃ read, tokens = read ++ rest ∧
      (DerivesChain level Derives (read.map Token.terminal) node ∧
          StopsAt (fun op ↦ p op ∧ op.level ≠ level) rest ∨
        DerivesClosed level Derives (read.map Token.terminal) node ∧ rest = []) := by
  unfold readChain at h
  split at h
  · cases h
  · cases h
  · next lhs behind hread =>
    obtain ⟨joined, hchain, hvalue⟩ := exists_of_map_eq_ok h
    cases hvalue
    obtain ⟨read, rfl, hleft, hstops⟩ := hreads.sound hformed hread
    obtain ⟨more, rfl, hmore⟩ :=
      chainFrom_sound hreads hformed.of_append hstops hchain (.operand hleft)
    refine ⟨read ++ more, (List.append_assoc ..).symm, ?_⟩
    rw [List.map_append]
    exact hmore

/-- Tokens that derive a chain leave the loop with its value in front of what follows. -/
theorem readChain_append (hreads : Reads operand Derives p)
    (hp : ∀ op : ControlOperator, op.level = level → p op) {terminals : List Terminal}
    (h : DerivesChain level Derives terminals node) {tokens rest : List Token}
    (hterminals : tokens.map Token.terminal = terminals) (hstops : StopsAt p rest) :
    readChain level operand (tokens ++ rest) =
      (chainFrom level operand node rest).map some := by
  induction h generalizing tokens rest with
  | operand h =>
    rw [← hterminals] at h
    rw [readChain, hreads.complete h hstops]
  | @joined op _ _ _ _ _ hjoins _ hright ih =>
    obtain ⟨hlevel, rfl⟩ := joins_iff.1 hjoins
    obtain ⟨left, behind, rfl, hleft, hbehind⟩ := List.map_eq_append_iff.1 hterminals
    obtain ⟨token, right, rfl, hcontrol, rfl⟩ := List.map_eq_cons_iff.1 hbehind
    have hop : token.kind = .control op := congrArg Terminal.kind hcontrol
    have hjoint : StopsAt p (token :: (right ++ rest)) := ⟨op, hop, hp op hlevel⟩
    rw [List.append_assoc, List.cons_append, ih hleft hjoint]
    have hahead := controlAhead?_of_exists_name hreads hright rest
    rw [chainFrom_join hop hlevel hahead (hreads.complete hright hstops)]

theorem readChain_eq_none_iff (hreads : Reads operand Derives p) {tokens : List Token} :
    readChain level operand tokens = .ok none ↔ tokens = [] := by
  rw [← hreads.eq_none_iff, readChain]
  constructor
  · intro h
    split at h
    · cases h
    · assumption
    · obtain ⟨joined, -, hvalue⟩ := exists_of_map_eq_ok h
      cases hvalue
  · intro h
    rw [h]

/-- A level whose operators cannot close a chain reads chains. -/
theorem Reads.chain (hreads : Reads operand Derives p)
    (hp : ∀ op : ControlOperator, op.level = level → p op)
    (hopen : ∀ (op : ControlOperator) (lhs : Node), op.level = level → op.close? lhs = none) :
    Reads (chain level operand) (DerivesChain level Derives)
      (fun op ↦ p op ∧ op.level ≠ level) where
  sound hformed h := by
    obtain ⟨read, htokens, ⟨hderives, hstops⟩ | ⟨hclosed, -⟩⟩ :=
      readChain_sound hreads hformed h
    · exact ⟨read, htokens, hderives, hstops⟩
    · generalize read.map Token.terminal = terminals at hclosed
      cases hclosed with
      | @close op _ lhs _ hlevel hclose =>
        rw [hopen op lhs hlevel] at hclose
        cases hclose
  complete {tokens rest node} h hstops := by
    have hoperand : StopsAt p rest := hstops.mono fun op h ↦ h.1
    have hother : StopsAt (fun op ↦ op.level ≠ level) rest := hstops.mono fun op h ↦ h.2
    rw [read_chain, readChain_append hreads hp h rfl hoperand, chainFrom_of_stopsAt hother]
    rfl
  exists_name := DerivesChain.exists_name hreads.exists_name
  eq_none_iff := readChain_eq_none_iff hreads

end Chain

end ShellLine.Grammar
