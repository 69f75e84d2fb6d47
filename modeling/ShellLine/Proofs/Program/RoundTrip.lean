import ShellLine.Proofs.Grammar.Parsing
import ShellLine.Proofs.Program.Canonical

/-!
# The source form of a program is parsed back

Between two spaces a piece of a source form is one lexeme, or a digit with the
redirection operator that it touches. So the pieces fix the terminals of the text,
and these derive the program that has been written.
-/

namespace ShellLine

open Lexicon Grammar

/-! ## Pieces and terminals -/

/-- A word that stands alone; digits in front of a blank are no descriptor. -/
def wordTerminal (word : String) : Terminal := ⟨Lexeme.wordKind word.toList, word⟩

theorem isArgument_wordKind (lexeme : List Char) :
    (Lexeme.wordKind lexeme).isArgument = true := by
  unfold Lexeme.wordKind
  split <;> rfl

theorem wordKind_eq_word {name : String} (h : ∀ w ∈ ReservedWord.all, name ≠ w.spelling) :
    Lexeme.wordKind name.toList = .word := by
  unfold Lexeme.wordKind
  split
  · next w hw =>
    have hspelling := ReservedWord.ofString?_eq_some_iff.1 hw
    rw [String.ofList_toList] at hspelling
    exact absurd hspelling.symm (h w w.mem_all)
  · rfl

theorem hasKind_wordKind {lexeme behind : List Char} (h : IsWord lexeme)
    (hbehind : ∀ c ∈ behind.head?, Text.isBlank c = true) :
    HasKind lexeme behind (Lexeme.wordKind lexeme) := by
  rcases h with hnumber | hname
  · have hfree : ∀ w ∈ ReservedWord.all, String.ofList lexeme ≠ w.spelling := by
      rintro w - hspelling
      have hname := isName_spelling w
      rw [← hspelling, String.toList_ofList] at hname
      exact not_isName_of_isNumber hnumber hname
    have hword := wordKind_eq_word hfree
    rw [String.toList_ofList] at hword
    rw [hword]
    exact .inl ⟨hnumber, fun h ↦ not_touchesRedirection_of_blank hbehind h.2⟩
  · exact hasKind_wordKind_of_isName hname behind

/-- Pieces, and the terminals as which they are read with spaces between them. -/
inductive Spells : List String → List Terminal → Prop
  | nil : Spells [] []
  | word {word : String} (h : IsWord word.toList) {pieces : List String}
      {terminals : List Terminal} (rest : Spells pieces terminals) :
      Spells (word :: pieces) (wordTerminal word :: terminals)
  | control (op : ControlOperator) {pieces : List String} {terminals : List Terminal}
      (rest : Spells pieces terminals) :
      Spells (op.spelling :: pieces) (.control op :: terminals)
  | redirection (op : RedirectionOperator) {pieces : List String} {terminals : List Terminal}
      (rest : Spells pieces terminals) :
      Spells (op.spelling :: pieces) (.redirection op :: terminals)
  | numbered {descriptor : UInt32} (op : RedirectionOperator) (h : descriptor ≤ 9)
      {pieces : List String} {terminals : List Terminal} (rest : Spells pieces terminals) :
      Spells ((toString descriptor.toNat ++ op.spelling) :: pieces)
        (⟨.ioNumber, toString descriptor.toNat⟩ :: .redirection op :: terminals)

theorem Spells.append {pieces pieces' : List String} {terminals terminals' : List Terminal}
    (h : Spells pieces terminals) (h' : Spells pieces' terminals') :
    Spells (pieces ++ pieces') (terminals ++ terminals') := by
  induction h with
  | nil => exact h'
  | word hword _ ih => exact ih.word hword
  | control op _ ih => exact ih.control op
  | redirection op _ ih => exact ih.redirection op
  | numbered op hdigit _ ih => exact ih.numbered op hdigit

/-! ## The text of the pieces -/

/-- The pieces with a space in front of each. -/
def spaced (pieces : List String) : List Char :=
  pieces.flatMap fun piece ↦ ' ' :: piece.toList

theorem space_intercalate (piece : String) (pieces : List String) :
    ' ' :: (" ".intercalate (piece :: pieces)).toList = spaced (piece :: pieces) := by
  induction pieces generalizing piece with
  | nil => simp [spaced]
  | cons next pieces ih =>
    have htail : spaced (piece :: next :: pieces) =
        ' ' :: (piece.toList ++ spaced (next :: pieces)) := rfl
    rw [htail, ← ih next, String.intercalate_cons_cons]
    simp

theorem isBlank_head?_spaced (pieces : List String) :
    ∀ c ∈ (spaced pieces).head?, Text.isBlank c = true := by
  cases pieces with
  | nil => exact nofun
  | cons piece pieces =>
    rintro c ⟨⟩
    decide

/-- A digit in front of a redirection operator is read as a descriptor. -/
theorem hasKind_descriptor {descriptor : UInt32} (h : descriptor ≤ 9) (op : RedirectionOperator)
    (behind : List Char) :
    LongestAt (toString descriptor.toNat).toList
        ((toString descriptor.toNat).toList ++ (op.spelling.toList ++ behind)) ∧
      HasKind (toString descriptor.toNat).toList (op.spelling.toList ++ behind) .ioNumber := by
  have hlt : descriptor.toNat < 10 := Nat.lt_succ_of_le (UInt32.le_iff_toNat_le.1 h)
  have hdigits : (toString descriptor.toNat).toList = [descriptor.toNat.digitChar] :=
    Text.toList_toString_of_lt_ten hlt
  have hdigit : descriptor.toNat.digitChar.isDigit = true := by
    rw [Nat.isDigit_digitChar, decide_eq_true hlt]
  rw [hdigits]
  exact number_touching_operator hdigit op behind

variable {s : Segmentation} {text : List Char} {pieces : List String} {terminals : List Terminal}

/-- A lexeme with a space or nothing behind it. -/
theorem Cuts.cons (h : Cuts s (spaced pieces) terminals) (terminal : Terminal)
    (hlexeme : IsLexeme terminal.value.toList)
    (hkind : HasKind terminal.value.toList (spaced pieces) terminal.kind) :
    Cuts (.piece [] terminal.value.toList s) (terminal.value.toList ++ spaced pieces)
      (terminal :: terminals) :=
  h.lexeme (longestAt_of_blank_behind hlexeme (isBlank_head?_spaced pieces)) hkind

theorem Spells.exists_cuts (h : Spells pieces terminals) :
    ∃ s : Segmentation, Cuts s (spaced pieces) terminals := by
  have hspace : ∀ c ∈ [' '], Text.isBlank c = true :=
    List.forall_mem_singleton.2 (by decide)
  induction h with
  | nil => exact ⟨.last [], rfl, nofun, .nil⟩
  | @word word hword pieces _ _ ih =>
    obtain ⟨s, hs⟩ := ih
    have hkind := hasKind_wordKind hword (isBlank_head?_spaced pieces)
    exact (hs.cons (wordTerminal word) (.inr hword) hkind).exists_indented hspace
  | control op _ ih =>
    obtain ⟨s, hs⟩ := ih
    have hlexeme : IsLexeme op.spelling.toList := .inl (isOperator_spelling_control op)
    exact (hs.cons (.control op) hlexeme rfl).exists_indented hspace
  | redirection op _ ih =>
    obtain ⟨s, hs⟩ := ih
    have hlexeme : IsLexeme op.spelling.toList := .inl (isOperator_spelling_redirection op)
    exact (hs.cons (.redirection op) hlexeme rfl).exists_indented hspace
  | @numbered descriptor op hdigit pieces terminals _ ih =>
    obtain ⟨s, hs⟩ := ih
    have hlexeme : IsLexeme op.spelling.toList := .inl (isOperator_spelling_redirection op)
    have hop := hs.cons (.redirection op) hlexeme rfl
    obtain ⟨hlongest, hkind⟩ := hasKind_descriptor hdigit op (spaced pieces)
    have hboth := @Cuts.lexeme _ _ _ hop ⟨.ioNumber, toString descriptor.toNat⟩ hlongest hkind
    have htext : spaced ((toString descriptor.toNat ++ op.spelling) :: pieces) =
        [' '] ++ ((toString descriptor.toNat).toList ++ (op.spelling.toList ++ spaced pieces)) := by
      simp [spaced]
    rw [htext]
    exact hboth.exists_indented hspace

/-- A blank in front of a text makes no difference to its lexemes. -/
theorem Cuts.of_blank {c : Char} (h : Cuts s (c :: text) terminals)
    (hc : Text.isBlank c = true) : ∃ t : Segmentation, Cuts t text terminals := by
  obtain ⟨htext, hmunch, hfits⟩ := h
  cases s with
  | last blanks =>
    obtain rfl : blanks = c :: text := htext
    exact ⟨.last text, rfl, fun d hd ↦ hmunch d (List.mem_cons_of_mem c hd), hfits⟩
  | piece blanks lexeme rest =>
    cases blanks with
    | nil =>
      obtain ⟨d, ds, rfl⟩ := List.exists_cons_of_ne_nil hmunch.2.1.ne_nil
      obtain rfl : d = c := (List.cons.inj htext).1
      have hlexeme := hmunch.2.1.isLexeme.isBlank_eq_false d (List.mem_cons_self ..)
      rw [hc] at hlexeme
      cases hlexeme
    | cons b blanks =>
      refine ⟨.piece blanks lexeme rest, (List.cons.inj htext).2, ⟨?_, hmunch.2⟩, hfits⟩
      exact fun d hd ↦ hmunch.1 d (List.mem_cons_of_mem b hd)

/-- Pieces with spaces between them are read as the terminals that they spell. -/
theorem Spells.map_terminal_tokenize (h : Spells pieces terminals) :
    (tokenize (" ".intercalate pieces)).map Token.terminal = terminals := by
  obtain ⟨s, hs⟩ := h.exists_cuts
  obtain ⟨t, ht⟩ : ∃ t : Segmentation, Cuts t (" ".intercalate pieces).toList terminals := by
    cases pieces with
    | nil => exact ⟨s, hs⟩
    | cons piece pieces =>
      rw [← space_intercalate] at hs
      exact hs.of_blank (by decide)
  exact terminals_of_segmentation ht.text_eq ht.maximalMunch ht.fits

/-! ## Canonical programs are derived -/

/-- The pieces of a node spell terminals that derive it. -/
def HasSource (Derives : List Terminal → Node → Prop) (node : Node) : Prop :=
  ∃ terminals, Spells node.pieces terminals ∧ Derives terminals node

theorem Redirection.Canonical.exists_source {redirection : Redirection}
    (h : redirection.Canonical) :
    ∃ terminals, Spells redirection.pieces terminals ∧
      DerivesRedirection terminals redirection := by
  obtain ⟨descriptor, op, target⟩ := redirection
  obtain ⟨hdigit, hword⟩ := h
  have htarget : Spells [target] [wordTerminal target] := .word hword .nil
  cases descriptor with
  | none => exact ⟨_, htarget.redirection op, .plain op (isArgument_wordKind _)⟩
  | some descriptor =>
    have hdescriptor : descriptor ≤ 9 := hdigit descriptor rfl
    exact ⟨_, htarget.numbered op hdescriptor, .numbered descriptor op (isArgument_wordKind _)⟩

theorem exists_source_of_redirections {redirections : List Redirection}
    (h : ∀ redirection ∈ redirections, redirection.Canonical) :
    ∃ terminals, Spells (redirections.flatMap Redirection.pieces) terminals ∧
      DerivesTail terminals [] redirections := by
  induction redirections with
  | nil => exact ⟨[], .nil, .nil⟩
  | cons redirection redirections ih =>
    obtain ⟨hhead, htail⟩ := List.forall_mem_cons.1 h
    obtain ⟨first, hspells, hderives⟩ := hhead.exists_source
    obtain ⟨others, hspells', hderives'⟩ := ih htail
    refine ⟨first ++ others, ?_, .redirection hderives hderives'⟩
    rw [List.flatMap_cons]
    exact hspells.append hspells'

theorem exists_source_of_arguments {arguments : List String} {redirections : List Redirection}
    (h : ∀ argument ∈ arguments, IsWord argument.toList)
    (hredirections : ∀ redirection ∈ redirections, redirection.Canonical) :
    ∃ terminals, Spells (arguments ++ redirections.flatMap Redirection.pieces) terminals ∧
      DerivesTail terminals arguments redirections := by
  induction arguments with
  | nil => exact exists_source_of_redirections hredirections
  | cons argument arguments ih =>
    obtain ⟨hhead, htail⟩ := List.forall_mem_cons.1 h
    obtain ⟨terminals, hspells, hderives⟩ := ih htail
    have hargument : (wordTerminal argument).kind.isArgument = true := isArgument_wordKind _
    exact ⟨_, hspells.word hhead, .argument hargument hderives⟩

theorem SimpleCommand.Canonical.hasSource {command : SimpleCommand} (h : command.Canonical) :
    HasSource DerivesCommand (.simple command) := by
  obtain ⟨⟨hname, hfree⟩, harguments, hredirections⟩ := h
  obtain ⟨terminals, hspells, hderives⟩ :=
    exists_source_of_arguments harguments hredirections
  have hword : wordTerminal command.name = ⟨.word, command.name⟩ := by
    rw [wordTerminal, wordKind_eq_word hfree]
  refine ⟨wordTerminal command.name :: terminals, hspells.word hname, ?_⟩
  rw [hword]
  exact .named command.name hderives

theorem HasSource.operand {Derives : List Terminal → Node → Prop} {node : Node} (level : Level)
    (h : HasSource Derives node) : HasSource (DerivesChain level Derives) node := by
  obtain ⟨terminals, hspells, hderives⟩ := h
  exact ⟨terminals, hspells, .operand hderives⟩

theorem pieces_join (op : ControlOperator) (lhs rhs : Node) :
    (op.join lhs rhs).pieces = lhs.pieces ++ op.spelling :: rhs.pieces := by
  cases op <;> rfl

theorem HasSource.join {Derives : List Terminal → Node → Prop} {lhs rhs : Node}
    (op : ControlOperator) (hleft : HasSource (DerivesChain op.level Derives) lhs)
    (hright : HasSource Derives rhs) :
    HasSource (DerivesChain op.level Derives) (op.join lhs rhs) := by
  obtain ⟨left, hspells, hderives⟩ := hleft
  obtain ⟨right, hspells', hderives'⟩ := hright
  refine ⟨left ++ .control op :: right, ?_, .join op rfl hderives hderives'⟩
  rw [pieces_join]
  exact hspells.append (hspells'.control op)

/-- The source of a node at every level at which the node may stand. -/
structure HasSources (node : Node) : Prop where
  command : node.isSimple = true → HasSource DerivesCommand node
  pipeline : node.isPipeline = true → HasSource DerivesPipeline node
  conditional : node.isSequence = false → HasSource DerivesConditional node
  sequence : HasSource (DerivesChain .sequence DerivesConditional) node

theorem Node.Canonical.hasSources : ∀ {node : Node}, node.Canonical → HasSources node
  | .simple command, h => by
    have hcommand : HasSource DerivesCommand (.simple command) :=
      SimpleCommand.Canonical.hasSource h
    have hpipeline := hcommand.operand .pipeline
    have hconditional := hpipeline.operand .conditional
    exact ⟨fun _ ↦ hcommand, fun _ ↦ hpipeline, fun _ ↦ hconditional, hconditional.operand _⟩
  | .pipe lhs rhs, ⟨⟨hleft, hright⟩, hlhs, hrhs⟩ => by
    have hpipeline := (hlhs.hasSources.pipeline hleft).join .pipe (hrhs.hasSources.command hright)
    have hconditional := hpipeline.operand .conditional
    exact ⟨nofun, fun _ ↦ hpipeline, fun _ ↦ hconditional, hconditional.operand _⟩
  | .conditional op lhs rhs, ⟨⟨hleft, hright⟩, hlhs, hrhs⟩ => by
    have hconditional := (hlhs.hasSources.conditional hleft).join (.conditional op)
      (hrhs.hasSources.pipeline hright)
    exact ⟨nofun, nofun, fun _ ↦ hconditional, hconditional.operand _⟩
  | .sequence op lhs rhs, ⟨hright, hlhs, hrhs⟩ => by
    have hsequence := hlhs.hasSources.sequence.join (.separator op)
      (hrhs.hasSources.conditional hright)
    exact ⟨nofun, nofun, nofun, hsequence⟩

theorem Node.CanonicalRoot.hasSource {node : Node} (h : node.CanonicalRoot) :
    HasSource DerivesSequence node := by
  have hchain : ∀ {node : Node}, node.Canonical → HasSource DerivesSequence node := by
    intro node hnode
    obtain ⟨terminals, hspells, hderives⟩ := hnode.hasSources.sequence
    exact ⟨terminals, hspells, .chain hderives⟩
  cases node with
  | terminated op lhs =>
    have hlhs : lhs.Canonical := h
    obtain ⟨terminals, hspells, hderives⟩ := hlhs.hasSources.sequence
    have hclosing : Spells [op.spelling] [.control (.separator op)] :=
      .control (.separator op) .nil
    exact ⟨_, hspells.append hclosing, .closed op hderives⟩
  | sequence op lhs rhs => exact hchain h
  | conditional op lhs rhs => exact hchain h
  | pipe lhs rhs => exact hchain h
  | simple command => exact hchain h
  | subshell nodes => exact hchain h

/-- Parsing undoes writing on all canonical programs. -/
theorem parse_unparse {program : Program} (h : program.Canonical) :
    parse program.unparse = .ok program := by
  obtain ⟨nodes⟩ := program
  obtain ⟨hlength, hnodes⟩ := h
  apply parse_of_derivesProgram
  match nodes, hlength, hnodes with
  | [], _, _ =>
    have hterminals := Spells.nil.map_terminal_tokenize
    change DerivesProgram ((tokenize (" ".intercalate [])).map Token.terminal) ⟨[]⟩
    rw [hterminals]
    exact .empty
  | [node], _, hnodes =>
    obtain ⟨terminals, hspells, hderives⟩ := (hnodes node (List.mem_singleton_self node)).hasSource
    have hpieces : Program.unparse ⟨[node]⟩ = " ".intercalate node.pieces := by
      rw [Program.unparse, List.flatMap_singleton]
    rw [hpieces, hspells.map_terminal_tokenize]
    exact .sequence hderives

theorem parse_nested_source :
    parse "cat if 42 2<<- - | wc || é > 7 ; b &" = .ok
      ⟨[.terminated .ampersand
        (.sequence .semicolon
          (.conditional .or
            (.pipe (.simple ⟨"cat", ["if", "42"], [⟨some 2, .hereDocumentStripped, "-"⟩]⟩)
              (.simple ⟨"wc", [], []⟩))
            (.simple ⟨"é", [], [⟨none, .write, "7"⟩]⟩))
          (.simple ⟨"b", [], []⟩))]⟩ := by
  rw [← parse_unparse (by decide)]
  congr 1

end ShellLine
