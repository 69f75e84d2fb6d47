import ShellLine.Grammar.Program
import ShellLine.Proofs.Grammar.Chain

/-!
# Parsing is derivation

A text is parsed to a program exactly when its terminals derive this program. So
parsing takes every token of the text once, and the grammar is unambiguous on all
texts.

Which error is given for the other texts is not treated here.
-/

namespace ShellLine.Grammar

/-! ## The levels -/

theorem reads_pipeline : Reads pipeline DerivesPipeline (fun op ↦ op.level ≠ .pipeline) := by
  have hends : (fun op : ControlOperator ↦ op.level ≠ .pipeline) =
      fun op ↦ True ∧ op.level ≠ .pipeline := by
    funext op
    rw [true_and]
  rw [hends]
  apply reads_command.chain
  · exact fun op _ ↦ trivial
  · intro op lhs hlevel
    cases op with
    | separator op => cases hlevel
    | conditional op => cases hlevel
    | pipe => rfl

theorem reads_conditional :
    Reads conditional DerivesConditional (fun op ↦ op.level = .sequence) := by
  have hends : (fun op : ControlOperator ↦ op.level = .sequence) =
      fun op ↦ op.level ≠ .pipeline ∧ op.level ≠ .conditional := by
    funext op
    cases op <;> simp [ControlOperator.level]
  rw [hends]
  apply reads_pipeline.chain
  · intro op hlevel
    rw [hlevel]
    exact nofun
  · intro op lhs hlevel
    cases op with
    | separator op => cases hlevel
    | conditional op => rfl
    | pipe => cases hlevel

/-! ## Sequences -/

theorem sequence_sound {tokens rest : List Token} {node : Node} (hformed : WellFormed tokens)
    (h : sequence.read tokens = .ok (some (node, rest))) :
    DerivesSequence (tokens.map Token.terminal) node ∧ rest = [] := by
  obtain ⟨read, rfl, ⟨hchain, hstops⟩ | ⟨hclosed, rfl⟩⟩ :=
    readChain_sound reads_conditional hformed h
  · cases rest with
    | nil =>
      rw [List.append_nil]
      exact ⟨.chain hchain, rfl⟩
    | cons token rest =>
      obtain ⟨op, -, hlevel, hother⟩ := hstops
      exact absurd hlevel hother
  · rw [List.append_nil]
    generalize read.map Token.terminal = terminals at hclosed
    cases hclosed with
    | close op hlevel hclose hchain =>
      cases op with
      | separator op =>
        cases hclose
        exact ⟨.closed op hchain, rfl⟩
      | conditional op => cases hlevel
      | pipe => cases hlevel

theorem sequence_complete {tokens : List Token} {node : Node}
    (h : DerivesSequence (tokens.map Token.terminal) node) :
    sequence.read tokens = .ok (some (node, [])) := by
  generalize hterminals : tokens.map Token.terminal = terminals at h
  cases h with
  | chain hchain =>
    have hread := readChain_append reads_conditional (fun _ h ↦ h) hchain hterminals
      (show StopsAt _ [] from trivial)
    rw [List.append_nil, chainFrom_of_stopsAt (show StopsAt _ [] from trivial)] at hread
    exact hread
  | closed op hchain =>
    obtain ⟨before, behind, rfl, hbefore, hbehind⟩ := List.map_eq_append_iff.1 hterminals
    obtain ⟨token, rfl, hcontrol⟩ := List.map_eq_singleton_iff.1 hbehind
    have hop : token.kind = .control (.separator op) := congrArg Terminal.kind hcontrol
    have hlevel : (ControlOperator.separator op).level = .sequence := rfl
    have hstops : StopsAt (fun op ↦ op.level = .sequence) [token] := ⟨.separator op, hop, hlevel⟩
    have hread := readChain_append reads_conditional (fun _ h ↦ h) hchain hbefore hstops
    rw [chainFrom_close hop hlevel rfl (reads_conditional.eq_none_iff.2 rfl) rfl] at hread
    exact hread

/-! ## Programs -/

theorem nodes_of_read {tokens rest : List Token} {node : Node}
    (h : sequence.read tokens = .ok (some (node, rest))) :
    nodes tokens = (nodes rest).map (node :: ·) := by
  rw [nodes]
  split <;> simp_all

theorem nodes_nil : nodes [] = .ok [] := by
  rw [nodes]
  rfl

/-- One sequence takes all tokens, so that a second one is never read. -/
theorem nodes_eq_ok_iff {tokens : List Token} (hformed : WellFormed tokens) {ns : List Node} :
    nodes tokens = .ok ns ↔ DerivesProgram (tokens.map Token.terminal) ⟨ns⟩ := by
  constructor
  · intro h
    cases hread : sequence.read tokens with
    | error failure =>
      rw [nodes] at h
      split at h <;> simp_all
    | ok read =>
      cases read with
      | none =>
        obtain rfl := (readChain_eq_none_iff reads_conditional).1 hread
        rw [nodes_nil] at h
        cases h
        exact .empty
      | some read =>
        obtain ⟨node, rest⟩ := read
        obtain ⟨hderives, rfl⟩ := sequence_sound hformed hread
        rw [nodes_of_read hread, nodes_nil] at h
        cases h
        exact .sequence hderives
  · intro h
    generalize hterminals : tokens.map Token.terminal = terminals at h
    cases h with
    | empty =>
      obtain rfl := List.map_eq_nil_iff.1 hterminals
      exact nodes_nil
    | sequence hderives =>
      rw [← hterminals] at hderives
      rw [nodes_of_read (sequence_complete hderives), nodes_nil]
      rfl

end ShellLine.Grammar

namespace ShellLine

open Grammar

theorem parse_of_derivesProgram {text : String} {program : Program}
    (h : DerivesProgram ((tokenize text).map Token.terminal) program) :
    parse text = .ok program := by
  have hnodes := (nodes_eq_ok_iff (wellFormed_tokenize text)).2 h
  rw [parse, hnodes]

theorem derivesProgram_of_parse {text : String} {program : Program}
    (h : parse text = .ok program) :
    DerivesProgram ((tokenize text).map Token.terminal) program := by
  apply (nodes_eq_ok_iff (wellFormed_tokenize text)).1
  unfold parse at h
  split at h
  · next hnodes =>
    cases h
    exact hnodes
  · cases h

/-- A text parses to the programs that its terminals derive, of which there is at most one. -/
theorem parse_iff_derivesProgram (text : String) :
    (∀ program, parse text = .ok program ↔
      DerivesProgram ((tokenize text).map Token.terminal) program) ∧
    ∀ a b, DerivesProgram ((tokenize text).map Token.terminal) a →
      DerivesProgram ((tokenize text).map Token.terminal) b → a = b := by
  refine ⟨fun program ↦ ⟨fun h ↦ ?_, parse_of_derivesProgram⟩, fun a b ha hb ↦ ?_⟩
  · unfold parse at h
    split at h
    · next ns hnodes =>
      cases h
      exact (nodes_eq_ok_iff (wellFormed_tokenize text)).1 hnodes
    · cases h
  · have hparse := (parse_of_derivesProgram ha).symm.trans (parse_of_derivesProgram hb)
    exact Except.ok.inj hparse

end ShellLine
