import ShellLine.Proofs.Token.Terminal

/-!
# Tokens in other layouts

The tokens of a text may be written with other blanks: any blanks in front of all of
them and behind the last one, and at least one between two. Only a number has to touch
the operator behind it. A text that comes of this is read as the same kinds and values,
whatever blanks it has.

Line breaks are blanks, so the places of the tokens differ between two layouts.
-/

namespace ShellLine

open Lexicon

/-! ## Layouts -/

/-- The text of tokens with blanks behind each, by which it stands apart from the next one. -/
inductive LaidOut : List Token → List Char → Prop
  | nil : LaidOut [] []
  | cons {token : Token} {tokens : List Token} {gap text : List Char}
      (hblank : ∀ c ∈ gap, Text.isBlank c = true)
      (hglued : token.kind = .ioNumber → gap = [])
      (hapart : token.kind ≠ .ioNumber → tokens ≠ [] → gap ≠ [])
      (rest : LaidOut tokens text) :
      LaidOut (token :: tokens) (token.value.toList ++ (gap ++ text))

/-- A text in which tokens are laid out, with blanks in front of all of them. -/
def IsLayout (tokens : List Token) (text : List Char) : Prop :=
  ∃ front body, (∀ c ∈ front, Text.isBlank c = true) ∧ LaidOut tokens body ∧
    text = front ++ body

/-- The layout with one space behind every token but a number. -/
def layOut : List Token → List Char
  | [] => []
  | token :: rest =>
    token.value.toList ++ ((if token.kind = .ioNumber then [] else [' ']) ++ layOut rest)

theorem laidOut_layOut (tokens : List Token) : LaidOut tokens (layOut tokens) := by
  induction tokens with
  | nil => exact .nil
  | cons token rest ih =>
    refine .cons ?_ (fun hnumber ↦ if_pos hnumber) (fun hother _ ↦ ?_) ih
    · intro c hc
      split at hc
      · cases hc
      · rw [List.mem_singleton.1 hc]
        decide
    · rw [if_neg hother]
      exact List.cons_ne_nil _ _

theorem isLayout_layOut (tokens : List Token) : IsLayout tokens (layOut tokens) :=
  ⟨[], layOut tokens, nofun, laidOut_layOut tokens, rfl⟩

/-! ## Lexemes in front of blanks -/

theorem Lexicon.HasKind.isLexeme {lexeme behind : List Char} {kind : Token.Kind}
    (h : HasKind lexeme behind kind) : IsLexeme lexeme := by
  cases kind with
  | eof => exact h.elim
  | control op => exact .inl (.inl ⟨op, h⟩)
  | redirection op => exact .inl (.inr ⟨op, h⟩)
  | reserved w =>
    have hspelling : lexeme = w.spelling.toList := h
    rw [hspelling]
    exact .inr (.inr (isName_spelling w))
  | ioNumber => exact .inr (.inl h.1)
  | word => exact .inr (h.imp And.left And.left)

/-- Only a number needs the text behind it. -/
theorem Lexicon.HasKind.of_blank_behind {lexeme behind behind' : List Char} {kind : Token.Kind}
    (h : HasKind lexeme behind kind) (hkind : kind ≠ .ioNumber)
    (hblank : ∀ c ∈ behind'.head?, Text.isBlank c = true) : HasKind lexeme behind' kind := by
  cases kind with
  | eof => exact h
  | control op => exact h
  | redirection op => exact h
  | reserved w => exact h
  | ioNumber => exact absurd rfl hkind
  | word =>
    have hfree := not_touchesRedirection_of_blank hblank
    exact h.imp_left fun hnumber ↦ ⟨hnumber.1, fun htouch ↦ hfree htouch.2⟩

/-! ## Reading a layout -/

theorem LaidOut.isBlank_head? {tokens : List Token} {gap text : List Char}
    (h : LaidOut tokens text) (hblank : ∀ c ∈ gap, Text.isBlank c = true)
    (hapart : tokens ≠ [] → gap ≠ []) : ∀ c ∈ (gap ++ text).head?, Text.isBlank c = true := by
  cases gap with
  | cons b gap =>
    rintro c ⟨⟩
    exact hblank b (List.mem_cons_self ..)
  | nil =>
    cases h with
    | nil => exact nofun
    | cons => exact absurd rfl (hapart (List.cons_ne_nil _ _))

theorem LaidOut.exists_cuts {tokens : List Token} {text : List Char} (h : LaidOut tokens text)
    (hformed : WellFormed tokens) :
    ∃ s : Segmentation, Cuts s text (tokens.map Token.terminal) := by
  induction h with
  | nil => exact ⟨.last [], rfl, nofun, .nil⟩
  | @cons token tokens gap text hblank hglued hapart hrest ih =>
    obtain ⟨s, hs⟩ := ih hformed.2.2
    obtain ⟨t, ht⟩ := hs.exists_indented hblank
    by_cases hnumber : token.kind = .ioNumber
    · obtain ⟨c, hc, hdigit⟩ := hformed.1.exists_digit hnumber
      obtain ⟨op, next, more, rfl, hop⟩ := hformed.2.1 hnumber
      obtain rfl := hglued hnumber
      have hspelling : next.value = op.spelling :=
        congrArg Terminal.value (hformed.2.2.1.eq_redirection hop)
      cases hrest with
      | @cons _ _ gap' text' =>
        obtain ⟨hlongest, hkind⟩ := number_touching_operator hc op (gap' ++ text')
        rw [← hdigit, ← hspelling] at hlongest hkind
        rw [← hnumber] at hkind
        exact ⟨_, ht.lexeme hlongest hkind⟩
    · obtain ⟨behind, hkind⟩ := hformed.1
      have hbehind := hrest.isBlank_head? hblank (hapart hnumber)
      have hlongest := longestAt_of_blank_behind hkind.isLexeme hbehind
      exact ⟨_, ht.lexeme hlongest (hkind.of_blank_behind hnumber hbehind)⟩

/-- Tokens are read from every layout of them, but for their places. -/
theorem IsLayout.map_terminal_tokenize {tokens : List Token} {text : String}
    (h : IsLayout tokens text.toList) (hformed : WellFormed tokens) :
    (tokenize text).map Token.terminal = tokens.map Token.terminal := by
  obtain ⟨front, body, hfront, hbody, htext⟩ := h
  obtain ⟨s, hs⟩ := hbody.exists_cuts hformed
  obtain ⟨t, ht⟩ := hs.exists_indented hfront
  rw [← htext] at ht
  exact terminals_of_segmentation ht.text_eq ht.maximalMunch ht.fits

end ShellLine
