import ShellLine.Proofs.Program.Rendering

/-!
# Spaces in a rendered program

The words of a program that a text says are free of blank characters, and so are its
operators. What is put between them is a space. So the rendered form has no blank
character but spaces: it is one line, whatever blanks stood in the text.
-/

namespace ShellLine

open Lexicon Text

/-- A blank character in the text is a space. -/
def BlanksAreSpaces (text : List Char) : Prop := ∀ c ∈ text, isBlank c = true → c = ' '

namespace BlanksAreSpaces

variable {text rest : List Char}

theorem of_all (h : text.all (fun c ↦ !isBlank c || c == ' ') = true) : BlanksAreSpaces text := by
  intro c hc hblank
  have hspace := List.all_eq_true.1 h c hc
  rw [hblank] at hspace
  exact eq_of_beq hspace

theorem of_isLexeme (h : IsLexeme text) : BlanksAreSpaces text := by
  intro c hc hblank
  rw [h.isBlank_eq_false c hc] at hblank
  cases hblank

theorem append (h : BlanksAreSpaces text) (hrest : BlanksAreSpaces rest) :
    BlanksAreSpaces (text ++ rest) :=
  List.forall_mem_append.2 ⟨h, hrest⟩

theorem space (hrest : BlanksAreSpaces rest) : BlanksAreSpaces (' ' :: rest) :=
  List.forall_mem_cons.2 ⟨fun _ ↦ rfl, hrest⟩

theorem closing (hrest : BlanksAreSpaces rest) : BlanksAreSpaces (')' :: rest) :=
  have hparenthesis : BlanksAreSpaces [')'] := of_all (by decide)
  hparenthesis.append hrest

end BlanksAreSpaces

/-! ## Commands -/

section Commands

variable {rest : List Char}

theorem Redirection.Canonical.blanksAreSpaces {redirection : Redirection}
    (h : redirection.Canonical) (hrest : BlanksAreSpaces rest) :
    BlanksAreSpaces (redirection.renderThen rest) := by
  obtain ⟨descriptor, op, target⟩ := redirection
  have hopening : BlanksAreSpaces "(redirection ".toList := .of_all (by decide)
  have htarget : BlanksAreSpaces target.toList := .of_isLexeme (.inr h.2)
  have hop : BlanksAreSpaces op.spelling.toList :=
    .of_isLexeme (.inl (isOperator_spelling_redirection op))
  have hbehind := hop.append (htarget.append hrest.closing).space
  cases descriptor with
  | none => exact hopening.append hbehind
  | some descriptor =>
    have hnumber : BlanksAreSpaces (toString descriptor.toNat).toList :=
      .of_isLexeme (.inr (isWord_toString descriptor))
    exact hopening.append (hnumber.append hbehind.space)

theorem Redirection.blanksAreSpaces_renderEachThen {redirections : List Redirection}
    (h : ∀ redirection ∈ redirections, redirection.Canonical) (hrest : BlanksAreSpaces rest) :
    BlanksAreSpaces (Redirection.renderEachThen redirections rest) := by
  induction redirections with
  | nil => exact hrest
  | cons redirection redirections ih =>
    obtain ⟨hfirst, hothers⟩ := List.forall_mem_cons.1 h
    exact (hfirst.blanksAreSpaces (ih hothers)).space

theorem blanksAreSpaces_joinThen {words : List String} (h : ∀ word ∈ words, IsWord word.toList)
    (hrest : BlanksAreSpaces rest) : BlanksAreSpaces (joinThen [' '] words rest) := by
  fun_induction joinThen [' '] words rest with
  | case1 => exact hrest
  | case2 word =>
    have hword : IsWord word.toList := h word (List.mem_singleton_self word)
    exact (BlanksAreSpaces.of_isLexeme (.inr hword)).append hrest
  | case3 word next words rest ih =>
    obtain ⟨hfirst, hothers⟩ := List.forall_mem_cons.1 h
    exact (BlanksAreSpaces.of_isLexeme (.inr hfirst)).append (ih hothers hrest).space

theorem SimpleCommand.Canonical.blanksAreSpaces {command : SimpleCommand}
    (h : command.Canonical) (hrest : BlanksAreSpaces rest) :
    BlanksAreSpaces (command.renderThen rest) := by
  obtain ⟨⟨hname, -⟩, harguments, hredirections⟩ := h
  have hopening : BlanksAreSpaces "(simpleCommand ".toList := .of_all (by decide)
  have hbracket : BlanksAreSpaces " [".toList := .of_all (by decide)
  have hclosing : BlanksAreSpaces [']'] := .of_all (by decide)
  have hbehind := Redirection.blanksAreSpaces_renderEachThen hredirections hrest.closing
  exact hopening.append ((BlanksAreSpaces.of_isLexeme (.inr hname)).append
    (hbracket.append (blanksAreSpaces_joinThen harguments (hclosing.append hbehind))))

end Commands

/-! ## Nodes and programs -/

theorem ControlOperator.blanksAreSpaces_spelling (op : ControlOperator) :
    BlanksAreSpaces op.spelling.toList :=
  .of_isLexeme (.inl (isOperator_spelling_control op))

theorem Node.Legible.blanksAreSpaces : ∀ {node : Node}, node.Legible → ∀ {rest : List Char},
    BlanksAreSpaces rest → BlanksAreSpaces (node.renderThen rest)
  | .sequence op _ _, ⟨hlhs, hrhs⟩, _, hrest => by
    have hopening : BlanksAreSpaces "(sequence ".toList := .of_all (by decide)
    have hop := ControlOperator.blanksAreSpaces_spelling (.separator op)
    have hoperands := hlhs.blanksAreSpaces (hrhs.blanksAreSpaces hrest.closing).space
    exact hopening.append (hop.append hoperands.space)
  | .terminated op lhs, h, _, hrest => by
    have hlhs : lhs.Legible := h
    have hopening : BlanksAreSpaces "(sequence ".toList := .of_all (by decide)
    have hop := ControlOperator.blanksAreSpaces_spelling (.separator op)
    exact hopening.append (hop.append (hlhs.blanksAreSpaces hrest.closing).space)
  | .conditional op _ _, ⟨hlhs, hrhs⟩, _, hrest => by
    have hopening : BlanksAreSpaces "(conditional ".toList := .of_all (by decide)
    have hop := ControlOperator.blanksAreSpaces_spelling (.conditional op)
    have hoperands := hlhs.blanksAreSpaces (hrhs.blanksAreSpaces hrest.closing).space
    exact hopening.append (hop.append hoperands.space)
  | .pipe _ _, ⟨hlhs, hrhs⟩, _, hrest => by
    have hopening : BlanksAreSpaces "(pipe ".toList := .of_all (by decide)
    have hoperands := hlhs.blanksAreSpaces (hrhs.blanksAreSpaces hrest.closing).space
    exact hopening.append hoperands
  | .simple command, h, _, hrest => by
    have hcommand : command.Canonical := h
    exact hcommand.blanksAreSpaces hrest

theorem Program.Canonical.blanksAreSpaces {program : Program} (h : program.Canonical) :
    BlanksAreSpaces program.render.toList := by
  obtain ⟨nodes⟩ := program
  obtain ⟨hlength, hnodes⟩ := h
  rw [Program.render, String.toList_ofList]
  cases nodes with
  | nil => exact List.forall_mem_nil _
  | cons node others =>
    have hothers : others.length = 0 := Nat.le_zero.1 (Nat.le_of_succ_le_succ hlength)
    obtain rfl := List.length_eq_zero_iff.1 hothers
    have hlegible := (hnodes node (List.mem_singleton_self node)).legible
    exact hlegible.blanksAreSpaces (List.forall_mem_nil _)

theorem Program.render_ne_empty {program : Program} (h : program.nodes ≠ []) :
    program.render ≠ "" := by
  obtain ⟨nodes⟩ := program
  obtain ⟨node, nodes, rfl⟩ := List.exists_cons_of_ne_nil h
  intro hempty
  exact node.renderThen_ne_nil _ (String.ofList_injective hempty)

end ShellLine
