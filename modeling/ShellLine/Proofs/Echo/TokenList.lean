import ShellLine.Echo.Lines
import ShellLine.Proofs.Program.Rendering

/-!
# Listed tokens can be told apart

Tokens are shown one after the other with a comma and a space between them, and without
quotes. A word may be a comma itself, or be spelled like a kind. Still two texts are listed
alike only if their tokens have the same kinds and values: a label ends at a space or a
comma, and behind its first character a word holds neither.

Where the value is not shown it is no loss, for the kind has one spelling only.
-/

namespace ShellLine

open Lexicon Text

/-! ## One token -/

/-- Whether the value is shown behind the label. -/
def Token.Kind.showsValue : Token.Kind → Bool
  | .word => true
  | .ioNumber => true
  | _ => false

/-- What is shown of a value. -/
def Token.shownValue (token : Token) : List Char :=
  if token.kind.showsValue then ' ' :: token.value.toList else []

theorem Token.toList_display (token : Token) :
    token.display.toList = token.kind.label.toList ++ token.shownValue := by
  obtain ⟨kind, value, position⟩ := token
  cases kind <;> simp [display, shownValue, Token.Kind.showsValue]

/-- Whether a character can stand in a label. -/
def labelChar (c : Char) : Bool := c != ',' && c != ' '

theorem Token.Kind.labelChar_of_mem_label (kind : Token.Kind) :
    ∀ c ∈ kind.label.toList, labelChar c = true := by
  have hall : all.all (fun kind ↦ kind.label.toList.all labelChar) = true := by decide +kernel
  exact List.all_eq_true.1 (List.all_eq_true.1 hall kind kind.mem_all)

namespace Terminal

variable {terminal : Terminal}

/-- A value that is shown is a word. -/
theorem Readable.isWord_of_showsValue (h : terminal.Readable)
    (hshows : terminal.kind.showsValue = true) : IsWord terminal.value.toList := by
  by_cases hnumber : terminal.kind = .ioNumber
  · obtain ⟨behind, hkind⟩ := h
    rw [hnumber] at hkind
    exact .inl hkind.1
  · apply h.isWord
    cases hkind : terminal.kind <;> simp_all [Token.Kind.showsValue, Token.Kind.isArgument]

/-- A value that is not shown is the label of the kind. -/
theorem Readable.value_eq_label (h : terminal.Readable)
    (hshows : terminal.kind.showsValue = false) : terminal.value = terminal.kind.label := by
  obtain ⟨kind, value⟩ := terminal
  obtain ⟨behind, hkind⟩ := h
  apply String.toList_inj.1
  cases kind with
  | control op => exact hkind
  | redirection op => exact hkind
  | reserved w => exact hkind
  | eof => exact hkind.elim
  | word => cases hshows
  | ioNumber => cases hshows

end Terminal

/-- The end of a list of tokens, or the comma in front of the next one. -/
def EndsDisplay (text : List Char) : Prop :=
  ∀ c ∈ text.head?, c = ','

theorem EndsDisplay.stopsWord {text : List Char} (h : EndsDisplay text) : StopsWord text := by
  intro c hc
  rw [h c hc]
  decide

theorem EndsDisplay.labelChar_eq_false {text : List Char} (h : EndsDisplay text) (token : Token) :
    ∀ c ∈ (token.shownValue ++ text).head?, labelChar c = false := by
  unfold Token.shownValue
  split
  · rintro c ⟨⟩
    decide
  · intro c hc
    rw [h c hc]
    decide

theorem Token.shownValue_inj {a b : Token} (ha : a.terminal.Readable) (hb : b.terminal.Readable)
    (hkind : a.kind = b.kind) {x y : List Char} (hx : EndsDisplay x) (hy : EndsDisplay y)
    (h : a.shownValue ++ x = b.shownValue ++ y) : a.value = b.value ∧ x = y := by
  obtain ⟨kind, value, position⟩ := a
  obtain ⟨kind', value', position'⟩ := b
  obtain rfl : kind = kind' := hkind
  unfold shownValue at h
  split at h
  · next hshows =>
    have hword := ha.isWord_of_showsValue hshows
    have hword' := hb.isWord_of_showsValue hshows
    obtain ⟨hvalue, hrest⟩ :=
      hword.append_inj hword' hx.stopsWord hy.stopsWord (List.cons.inj h).2
    exact ⟨String.toList_inj.1 hvalue, hrest⟩
  · next hshows =>
    have hlabel := ha.value_eq_label (Bool.eq_false_iff.2 hshows)
    have hlabel' := hb.value_eq_label (Bool.eq_false_iff.2 hshows)
    exact ⟨hlabel.trans hlabel'.symm, h⟩

/-- A display ends at the comma behind it, even if a comma is part of it. -/
theorem Token.display_inj {a b : Token} (ha : a.terminal.Readable) (hb : b.terminal.Readable)
    {x y : List Char} (hx : EndsDisplay x) (hy : EndsDisplay y)
    (h : a.display.toList ++ x = b.display.toList ++ y) : a.terminal = b.terminal ∧ x = y := by
  rw [a.toList_display, b.toList_display, List.append_assoc, List.append_assoc] at h
  obtain ⟨hlabel, hbehind⟩ := append_inj_of_stops a.kind.labelChar_of_mem_label
    b.kind.labelChar_of_mem_label (hx.labelChar_eq_false a) (hy.labelChar_eq_false b) h
  have hkind := Token.Kind.label_injective (String.toList_inj.1 hlabel)
  obtain ⟨hvalue, hrest⟩ := shownValue_inj ha hb hkind hx hy hbehind
  rw [terminal, terminal, hkind, hvalue]
  exact ⟨rfl, hrest⟩

/-! ## All tokens of a text -/

/-- Tokens as they are listed. -/
def listed (tokens : List Token) : List Char :=
  joinThen [',', ' '] (tokens.map Token.display) []

/-- What stands behind the first token of a list. -/
def behindFirst : List Token → List Char
  | [] => []
  | next :: tokens => ',' :: ' ' :: listed (next :: tokens)

theorem listed_cons (token : Token) (tokens : List Token) :
    listed (token :: tokens) = token.display.toList ++ behindFirst tokens := by
  cases tokens <;> rfl

theorem endsDisplay_behindFirst (tokens : List Token) : EndsDisplay (behindFirst tokens) := by
  cases tokens with
  | nil => exact nofun
  | cons next tokens =>
    rintro c ⟨⟩
    rfl

theorem listed_ne_nil (token : Token) (tokens : List Token) : listed (token :: tokens) ≠ [] := by
  rw [listed_cons, token.toList_display, List.append_assoc]
  exact List.append_ne_nil_of_left_ne_nil token.kind.label_ne_nil _

theorem map_terminal_eq_of_listed_eq {as bs : List Token} (ha : WellFormed as)
    (hb : WellFormed bs) (h : listed as = listed bs) :
    as.map Token.terminal = bs.map Token.terminal := by
  induction as generalizing bs with
  | nil =>
    cases bs with
    | nil => rfl
    | cons b bs => exact absurd h.symm (listed_ne_nil b bs)
  | cons a as ih =>
    cases bs with
    | nil => exact absurd h (listed_ne_nil a as)
    | cons b bs =>
      rw [listed_cons, listed_cons] at h
      obtain ⟨hfirst, hbehind⟩ := Token.display_inj ha.1 hb.1 (endsDisplay_behindFirst as)
        (endsDisplay_behindFirst bs) h
      have hothers : listed as = listed bs := by
        cases as <;> cases bs <;> simp_all [behindFirst]
      rw [List.map_cons, List.map_cons, hfirst, ih ha.2.2 hb.2.2 hothers]

theorem map_display_congr {as bs : List Token}
    (h : as.map Token.terminal = bs.map Token.terminal) :
    as.map Token.display = bs.map Token.display := by
  have hmap : ∀ tokens : List Token, tokens.map Token.display =
      (tokens.map Token.terminal).map fun terminal ↦
        (⟨terminal.kind, terminal.value, .start⟩ : Token).display := by
    intro tokens
    rw [List.map_map]
    rfl
  rw [hmap, hmap, h]

namespace Echo

/-- Two texts have the same list of shown tokens exactly if their tokens have the same kinds and
values. -/
theorem showTokens_eq_iff (a b : String) :
    showTokens false (tokenize a) = showTokens false (tokenize b) ↔
      (tokenize a).map Token.terminal = (tokenize b).map Token.terminal := by
  constructor
  · intro h
    exact map_terminal_eq_of_listed_eq (wellFormed_tokenize a) (wellFormed_tokenize b)
      (String.ofList_injective h)
  · intro h
    change String.ofList (listed (tokenize a)) = String.ofList (listed (tokenize b))
    rw [listed, listed, map_display_congr h]

example : showTokens false (tokenize ", ,EOF 2>WORD") =
    "WORD ,, WORD ,EOF, IO_NUMBER 2, >, WORD WORD" := by
  decide +kernel

end Echo

end ShellLine
