import ShellLine.Proofs.Token.Segmentation

/-!
# Tokens without their places

The grammar sees the kind and the value of a token. Not every kind goes with
every value, and not every token may follow every other one: what a text gives is
well formed. A segmentation of a text fixes the kinds and values of its tokens.
-/

namespace ShellLine

open Lexicon

/-- A token without its place. -/
structure Terminal where
  kind : Token.Kind
  value : String
  deriving DecidableEq

def Token.terminal (token : Token) : Terminal := ⟨token.kind, token.value⟩

namespace Terminal

def control (op : ControlOperator) : Terminal := ⟨.control op, op.spelling⟩

def redirection (op : RedirectionOperator) : Terminal := ⟨.redirection op, op.spelling⟩

/-- Whether the kind goes with the value in front of some text. -/
def Readable (terminal : Terminal) : Prop :=
  ∃ behind, HasKind terminal.value.toList behind terminal.kind

theorem Readable.kind_ne_eof {terminal : Terminal} (h : terminal.Readable) :
    terminal.kind ≠ .eof := by
  obtain ⟨behind, hkind⟩ := h
  intro heof
  rw [heof] at hkind
  exact hkind

theorem Readable.eq_control {terminal : Terminal} {op : ControlOperator}
    (h : terminal.Readable) (hop : terminal.kind = .control op) : terminal = control op := by
  obtain ⟨kind, value⟩ := terminal
  obtain ⟨behind, hkind⟩ := h
  cases hop
  have hvalue : value = op.spelling := String.toList_inj.1 hkind
  rw [control, hvalue]

theorem Readable.eq_redirection {terminal : Terminal} {op : RedirectionOperator}
    (h : terminal.Readable) (hop : terminal.kind = .redirection op) :
    terminal = redirection op := by
  obtain ⟨kind, value⟩ := terminal
  obtain ⟨behind, hkind⟩ := h
  cases hop
  have hvalue : value = op.spelling := String.toList_inj.1 hkind
  rw [redirection, hvalue]

/-- The value of a number is a single digit. -/
theorem Readable.exists_digit {terminal : Terminal} (h : terminal.Readable)
    (hnumber : terminal.kind = .ioNumber) :
    ∃ c, c.isDigit = true ∧ terminal.value.toList = [c] := by
  obtain ⟨behind, hkind⟩ := h
  rw [hnumber] at hkind
  obtain ⟨c, hc⟩ := List.length_eq_one_iff.1 hkind.2.1
  refine ⟨c, ?_, hc⟩
  exact hkind.1.2 c (by rw [hc]; exact List.mem_singleton_self c)

end Terminal

/-- Tokens as a text gives them. A redirection operator stands directly behind every number. -/
def WellFormed : List Token → Prop
  | [] => True
  | token :: rest => token.terminal.Readable ∧
      (token.kind = .ioNumber → ∃ op next more, rest = next :: more ∧
        next.kind = .redirection op) ∧ WellFormed rest

theorem WellFormed.of_append {before after : List Token} (h : WellFormed (before ++ after)) :
    WellFormed after := by
  induction before with
  | nil => exact h
  | cons token before ih => exact ih h.2.2

namespace Lexicon

/-- A lexeme that begins like a redirection operator is one. -/
theorem exists_redirection_of_head {lexeme behind : List Char} {kind : Token.Kind}
    (hlexeme : IsLexeme lexeme) (htouch : TouchesRedirection lexeme)
    (hkind : HasKind lexeme behind kind) : ∃ op, kind = .redirection op := by
  obtain ⟨c, cs, rfl⟩ := List.exists_cons_of_ne_nil hlexeme.ne_nil
  have hmem : c ∈ operatorChars := by
    rcases htouch with h | h <;> cases h <;> decide
  rcases isOperator_of_head_mem hlexeme hmem with ⟨op, hop⟩ | ⟨op, hop⟩
  · rw [hop] at htouch
    rcases op with (_ | _) | (_ | _) | _ <;> exact absurd htouch (by decide)
  · exact ⟨op, hkind.unique hlexeme hop⟩

theorem wellFormed_of_segmentation {tokens : List Token} {s : Segmentation}
    (hmunch : s.MaximalMunch) (h : List.Forall₂ ReadAt tokens s.places) :
    WellFormed tokens := by
  induction s generalizing tokens with
  | last blanks => cases h; trivial
  | piece blanks lexeme rest ih =>
    cases h with
    | @cons token _ tokens _ hread hrest =>
      have hkind : HasKind token.value.toList rest.text token.kind := by
        rw [hread.1]
        exact (hread.2 token.kind).2 rfl
      refine ⟨⟨rest.text, hkind⟩, fun hnumber ↦ ?_, ih hmunch.2.2 hrest⟩
      rw [hnumber] at hkind
      have htouch := hkind.2.2
      -- What touches the digit is no blank, so it begins the next lexeme.
      cases rest with
      | last blanks =>
        have hblank : ∀ c ∈ blanks.head?, Text.isBlank c = true := fun c hc ↦
          hmunch.2.2 c (List.mem_of_mem_head? hc)
        exact absurd htouch (not_touchesRedirection_of_blank hblank)
      | piece blanks' lexeme' rest' =>
        cases blanks' with
        | cons b blanks' =>
          have hblank : ∀ c ∈ ((b :: blanks') ++ (lexeme' ++ rest'.text)).head?,
              Text.isBlank c = true := by
            rintro c ⟨⟩
            exact hmunch.2.2.1 b (List.mem_cons_self ..)
          exact absurd htouch (not_touchesRedirection_of_blank hblank)
        | nil =>
          cases hrest with
          | @cons next _ more _ hread' _ =>
            have hlexeme := hmunch.2.2.2.1.isLexeme
            have hfront : TouchesRedirection lexeme' := by
              obtain ⟨c, cs, rfl⟩ := List.exists_cons_of_ne_nil hlexeme.ne_nil
              exact htouch
            obtain ⟨op, hop⟩ := exists_redirection_of_head hlexeme hfront
              ((hread'.2 next.kind).2 rfl)
            exact ⟨op, next, more, rfl, hop⟩

/-- A digit in front of a redirection operator is a number, which ends there. -/
theorem number_touching_operator {c : Char} (hc : c.isDigit = true) (op : RedirectionOperator)
    (behind : List Char) :
    LongestAt [c] ([c] ++ (op.spelling.toList ++ behind)) ∧
      HasKind [c] (op.spelling.toList ++ behind) .ioNumber := by
  have htouch : TouchesRedirection (op.spelling.toList ++ behind) := by
    cases op <;> first | exact .inl rfl | exact .inr rfl
  have hrun : (op.spelling.toList ++ behind).takeWhile Char.isDigit = [] := by
    cases op <;> rfl
  have hlongest := longestAt_number (op.spelling.toList ++ behind) hc
  rw [hrun] at hlongest
  exact ⟨hlongest, ⟨nofun, List.forall_mem_singleton.2 hc⟩, rfl, htouch⟩

/-- A terminal that fits a lexeme and the text behind it. -/
def Fits (terminal : Terminal) (place : List Char × List Char) : Prop :=
  terminal.value.toList = place.1 ∧ HasKind place.1 place.2 terminal.kind

theorem map_terminal_eq {tokens : List Token} {terminals : List Terminal}
    {places : List (List Char × List Char)} (hread : List.Forall₂ ReadAt tokens places)
    (hfits : List.Forall₂ Fits terminals places) : tokens.map Token.terminal = terminals := by
  induction hread generalizing terminals with
  | nil => cases hfits; rfl
  | cons hread _ ih =>
    cases hfits with
    | @cons terminal _ terminals _ hfit hfits =>
      have hkind := (hread.2 terminal.kind).1 hfit.2
      have hvalue := String.toList_inj.1 (hread.1.trans hfit.1.symm)
      rw [List.map_cons, ih hfits, Token.terminal, ← hkind, hvalue]

/-- A segmentation of a text fixes the kinds and the values of its tokens. -/
theorem terminals_of_segmentation {text : String} {terminals : List Terminal} {s : Segmentation}
    (htext : s.text = text.toList) (hmunch : s.MaximalMunch)
    (hfits : List.Forall₂ Fits terminals s.places) :
    (tokenize text).map Token.terminal = terminals := by
  obtain ⟨t, ht, hcut, hplaces⟩ := exists_segmentation (Cursor.ofText text)
  obtain rfl : t = s := Segmentation.eq_of_text_eq hcut hmunch (ht.trans htext.symm)
  exact map_terminal_eq hplaces hfits

end Lexicon

/-! ## Cutting a text into given terminals -/

/-- A segmentation of a text with lexemes that fit the terminals. -/
structure Cuts (s : Segmentation) (text : List Char) (terminals : List Terminal) : Prop where
  text_eq : s.text = text
  maximalMunch : s.MaximalMunch
  fits : List.Forall₂ Fits terminals s.places

namespace Cuts

variable {s : Segmentation} {text : List Char} {terminals : List Terminal}

/-- One more lexeme in front, which the text behind it does not make longer. -/
theorem lexeme (h : Cuts s text terminals) {terminal : Terminal}
    (hlongest : LongestAt terminal.value.toList (terminal.value.toList ++ text))
    (hkind : HasKind terminal.value.toList text terminal.kind) :
    Cuts (.piece [] terminal.value.toList s) (terminal.value.toList ++ text)
      (terminal :: terminals) := by
  rw [← h.text_eq] at hlongest hkind ⊢
  exact ⟨rfl, ⟨nofun, hlongest, h.maximalMunch⟩, .cons ⟨rfl, hkind⟩ h.fits⟩

/-- Blanks in front make no difference. -/
theorem exists_indented (h : Cuts s text terminals) {front : List Char}
    (hfront : ∀ c ∈ front, Text.isBlank c = true) :
    ∃ t : Segmentation, Cuts t (front ++ text) terminals := by
  obtain ⟨rfl, hmunch, hfits⟩ := h
  cases s with
  | last blanks =>
    exact ⟨.last (front ++ blanks), rfl, List.forall_mem_append.2 ⟨hfront, hmunch⟩, hfits⟩
  | piece blanks lexeme rest =>
    have hblanks := List.forall_mem_append.2 ⟨hfront, hmunch.1⟩
    exact ⟨.piece (front ++ blanks) lexeme rest, List.append_assoc .., ⟨hblanks, hmunch.2⟩, hfits⟩

end Cuts

theorem wellFormed_tokenize (text : String) : WellFormed (tokenize text) := by
  obtain ⟨s, -, hmunch, hplaces⟩ := Lexicon.exists_segmentation (Cursor.ofText text)
  exact Lexicon.wellFormed_of_segmentation hmunch hplaces

end ShellLine
