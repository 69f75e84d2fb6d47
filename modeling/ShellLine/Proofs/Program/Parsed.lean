import ShellLine.Proofs.Grammar.Parsing
import ShellLine.Proofs.Program.Canonical

/-!
# Parsed programs are canonical

A derivation builds canonical trees only: a chain hangs each operand of its level to
the right of all that came before, and every word that it takes from a text is a
lexeme. So no text is parsed to a tree that leans to the right, to a subshell, or to
an open separator inside a program.
-/

namespace ShellLine

open Lexicon Grammar

/-! ## Words in readable terminals -/

namespace Terminal

theorem Readable.isWord {terminal : Terminal} (h : terminal.Readable)
    (hargument : terminal.kind.isArgument = true) : IsWord terminal.value.toList := by
  obtain ⟨kind, value⟩ := terminal
  obtain ⟨behind, hkind⟩ := h
  cases kind with
  | word => exact hkind.imp And.left And.left
  | reserved w =>
    have hvalue : value.toList = w.spelling.toList := hkind
    rw [hvalue]
    exact .inr (isName_spelling w)
  | eof => cases hargument
  | control op => cases hargument
  | redirection op => cases hargument
  | ioNumber => cases hargument

/-- A word that is spelled as a reserved word would have been read as one. -/
theorem Readable.ne_spelling {name : String} (h : Readable ⟨.word, name⟩) (w : ReservedWord) :
    name ≠ w.spelling := by
  rintro rfl
  obtain ⟨behind, hnumber | hname⟩ := h
  · exact not_isName_of_isNumber hnumber.1 (isName_spelling w)
  · exact hname.2 w rfl

/-- The spelling of a larger descriptor has two digits at least. -/
theorem Readable.le_nine {descriptor : UInt32}
    (h : Readable ⟨.ioNumber, toString descriptor.toNat⟩) : descriptor ≤ 9 := by
  obtain ⟨c, -, hdigit⟩ := h.exists_digit rfl
  have hlength : (Nat.toDigits 10 descriptor.toNat).length ≤ 1 := by
    have hdigits : Nat.toDigits 10 descriptor.toNat = [c] := by
      rw [← hdigit, Text.toList_toString]
    rw [hdigits]
    exact Nat.le_refl 1
  have hlt := (Nat.length_toDigits_le_iff (by decide) (by decide)).1 hlength
  exact UInt32.le_iff_toNat_le.2 (Nat.le_of_lt_succ hlt)

end Terminal

/-! ## Derived trees -/

namespace Grammar

/-- All terminals come from a text. -/
def AllReadable (terminals : List Terminal) : Prop :=
  ∀ terminal ∈ terminals, terminal.Readable

theorem AllReadable.of_append {left right : List Terminal} (h : AllReadable (left ++ right)) :
    AllReadable left ∧ AllReadable right :=
  List.forall_mem_append.1 h

theorem DerivesRedirection.canonical {terminals : List Terminal} {redirection : Redirection}
    (h : DerivesRedirection terminals redirection) (hreadable : AllReadable terminals) :
    redirection.Canonical := by
  cases h with
  | plain op hargument =>
    have htarget := hreadable _ (List.mem_cons_of_mem _ (List.mem_singleton_self _))
    exact ⟨nofun, htarget.isWord hargument⟩
  | numbered descriptor op hargument =>
    obtain ⟨hnumber, hrest⟩ := List.forall_mem_cons.1 hreadable
    have htarget := hrest _ (List.mem_cons_of_mem _ (List.mem_singleton_self _))
    refine ⟨?_, htarget.isWord hargument⟩
    rintro _ ⟨⟩
    exact hnumber.le_nine

theorem DerivesTail.canonical {terminals : List Terminal} {arguments : List String}
    {redirections : List Redirection} (h : DerivesTail terminals arguments redirections)
    (hreadable : AllReadable terminals) :
    (∀ argument ∈ arguments, IsWord argument.toList) ∧
      ∀ redirection ∈ redirections, redirection.Canonical := by
  induction h with
  | nil => exact ⟨nofun, nofun⟩
  | argument hargument _ ih =>
    obtain ⟨hhead, htail⟩ := List.forall_mem_cons.1 hreadable
    obtain ⟨harguments, hredirections⟩ := ih htail
    exact ⟨List.forall_mem_cons.2 ⟨hhead.isWord hargument, harguments⟩, hredirections⟩
  | redirection hhead _ ih =>
    obtain ⟨hwritten, htail⟩ := hreadable.of_append
    obtain ⟨harguments, hredirections⟩ := ih htail
    exact ⟨harguments, List.forall_mem_cons.2 ⟨hhead.canonical hwritten, hredirections⟩⟩

/-- All trees that are derived from terminals of a text have a property. -/
def Yields (Derives : List Terminal → Node → Prop) (p : Node → Prop) : Prop :=
  ∀ ⦃terminals : List Terminal⦄ ⦃node : Node⦄,
    Derives terminals node → AllReadable terminals → p node

theorem yields_command :
    Yields DerivesCommand (fun node ↦ node.isSimple = true ∧ node.Canonical) := by
  intro terminals node h hreadable
  cases h with
  | named name htail =>
    obtain ⟨hname, hrest⟩ := List.forall_mem_cons.1 hreadable
    refine ⟨rfl, ⟨hname.isWord rfl, fun w _ ↦ hname.ne_spelling w⟩, htail.canonical hrest⟩

/-- A chain has a property that its first operand has and that no operator of the level destroys
by joining one more operand on the right. -/
theorem Yields.chain {level : Level} {Operand : List Terminal → Node → Prop} {p q : Node → Prop}
    (hoperand : Yields Operand q) (hfirst : ∀ node, q node → p node)
    (hjoin : ∀ (op : ControlOperator) (lhs rhs : Node), op.level = level → p lhs → q rhs →
      p (op.join lhs rhs)) : Yields (DerivesChain level Operand) p := by
  intro terminals node h hreadable
  induction h with
  | operand h => exact hfirst _ (hoperand h hreadable)
  | joined hjoins _ hright ih =>
    obtain ⟨hleft, hrest⟩ := hreadable.of_append
    obtain ⟨hlevel, rfl⟩ := joins_iff.1 hjoins
    exact hjoin _ _ _ hlevel (ih hleft) (hoperand hright (List.forall_mem_cons.1 hrest).2)

theorem yields_pipeline :
    Yields DerivesPipeline (fun node ↦ node.isPipeline = true ∧ node.Canonical) := by
  refine yields_command.chain ?_ ?_
  · rintro node ⟨hsimple, hcanonical⟩
    cases node with
    | simple command => exact ⟨rfl, hcanonical⟩
    | _ => cases hsimple
  · rintro op lhs rhs hlevel ⟨hlhs, hleft⟩ ⟨hrhs, hright⟩
    cases op with
    | pipe => exact ⟨rfl, ⟨hlhs, hrhs⟩, hleft, hright⟩
    | separator op => cases hlevel
    | conditional op => cases hlevel

theorem yields_conditional :
    Yields DerivesConditional (fun node ↦ node.isSequence = false ∧ node.Canonical) := by
  refine yields_pipeline.chain ?_ ?_
  · rintro node ⟨hpipeline, hcanonical⟩
    cases node with
    | simple command => exact ⟨rfl, hcanonical⟩
    | pipe lhs rhs => exact ⟨rfl, hcanonical⟩
    | _ => cases hpipeline
  · rintro op lhs rhs hlevel ⟨hlhs, hleft⟩ ⟨hrhs, hright⟩
    cases op with
    | conditional op => exact ⟨rfl, ⟨hlhs, hrhs⟩, hleft, hright⟩
    | separator op => cases hlevel
    | pipe => cases hlevel

theorem yields_separated :
    Yields (DerivesChain .sequence DerivesConditional) Node.Canonical := by
  refine yields_conditional.chain ?_ ?_
  · exact fun node hnode ↦ hnode.2
  · rintro op lhs rhs hlevel hleft ⟨hrhs, hright⟩
    cases op with
    | separator op => exact ⟨hrhs, hleft, hright⟩
    | conditional op => cases hlevel
    | pipe => cases hlevel

theorem yields_sequence : Yields DerivesSequence Node.CanonicalRoot := by
  intro terminals node h hreadable
  cases h with
  | chain h => exact (yields_separated h hreadable).canonicalRoot
  | closed op h => exact yields_separated h hreadable.of_append.1

end Grammar

/-! ## Parsed programs -/

theorem allReadable_of_wellFormed {tokens : List Token} (h : WellFormed tokens) :
    AllReadable (tokens.map Token.terminal) := by
  induction tokens with
  | nil => exact nofun
  | cons token rest ih => exact List.forall_mem_cons.2 ⟨h.1, ih h.2.2⟩

theorem Program.Canonical.of_parse {text : String} {program : Program}
    (h : parse text = .ok program) : program.Canonical := by
  have hreadable := allReadable_of_wellFormed (wellFormed_tokenize text)
  have hderives := derivesProgram_of_parse h
  generalize (tokenize text).map Token.terminal = terminals at hreadable hderives
  cases hderives with
  | empty => exact ⟨Nat.zero_le 1, nofun⟩
  | sequence hderives =>
    exact ⟨Nat.le_refl 1, List.forall_mem_singleton.2 (yields_sequence hderives hreadable)⟩

/-- Blanks hold no token, and nothing else does without one. -/
theorem tokenize_eq_nil_iff (text : String) :
    tokenize text = [] ↔ Text.allBlank text = true := by
  obtain ⟨s, htext, hmunch, hplaces⟩ := exists_segmentation (Cursor.ofText text)
  have hblank : Text.allBlank text = true ↔ ∀ c ∈ s.text, Text.isBlank c = true := by
    rw [htext]
    exact List.all_eq_true
  rw [hblank]
  cases s with
  | last blanks =>
    have htokens : tokenize text = [] := List.forall₂_nil_right_iff.1 hplaces
    exact iff_of_true htokens hmunch
  | piece blanks lexeme rest =>
    refine iff_of_false ?_ (Segmentation.not_blank_piece hmunch)
    intro hnone
    have htokens : (Cursor.ofText text).drain.1 = [] := hnone
    rw [htokens] at hplaces
    cases hplaces

theorem nodes_eq_nil_iff_of_parse {text : String} {program : Program}
    (h : parse text = .ok program) : program.nodes = [] ↔ tokenize text = [] := by
  have hderives := derivesProgram_of_parse h
  rw [← List.map_eq_nil_iff (f := Token.terminal)]
  generalize (tokenize text).map Token.terminal = terminals at hderives ⊢
  cases hderives with
  | empty => exact iff_of_true rfl rfl
  | sequence hderives =>
    refine iff_of_false (List.cons_ne_nil _ _) ?_
    rintro rfl
    obtain ⟨name, rest, hname⟩ := hderives.exists_name
    cases hname

/-- A program that a text is parsed to is canonical, and is empty only if the text is blank. -/
theorem canonical_of_parse {text : String} {program : Program}
    (h : parse text = .ok program) :
    program.Canonical ∧ (program.nodes = [] ↔ Text.allBlank text = true) := by
  refine ⟨Program.Canonical.of_parse h, ?_⟩
  rw [nodes_eq_nil_iff_of_parse h, tokenize_eq_nil_iff]

theorem canonical_of_parse_mixed_levels :
    ∃ program, parse "a | ] 9<<-é && if_ then; 42 &" = .ok program ∧ program.Canonical ∧
      (program.nodes = [] ↔ Text.allBlank "a | ] 9<<-é && if_ then; 42 &" = true) := by
  have h : parse "a | ] 9<<-é && if_ then; 42 &" = .ok
      ⟨[.terminated .ampersand
        (.sequence .semicolon
          (.conditional .and
            (.pipe (.simple ⟨"a", [], []⟩)
              (.simple ⟨"]", [], [⟨some 9, .hereDocumentStripped, "é"⟩]⟩))
            (.simple ⟨"if_", ["then"], []⟩))
          (.simple ⟨"42", [], []⟩))]⟩ := by
    decide +kernel
  exact ⟨_, h, canonical_of_parse h⟩

end ShellLine
