import ShellLine.Proofs.Text.Apart
import ShellLine.Token.Lexeme

/-!
# Which texts are lexemes

The lexemes are the spellings of the operators, the runs of digits, and the
names: a character that none of the other classes claims, with word characters
behind it. A text and the text behind it determine the longest lexeme at its
front and the kind of that lexeme. `Lexeme.ofChars` finds both.

Nothing here says how the operators are searched for or how a run is scanned.
-/

namespace ShellLine.Lexicon

open Text

/-! ## Classes of lexemes -/

/-- The characters with which operators begin. -/
def operatorChars : List Char := ['&', '|', ';', '<', '>']

def IsOperator (lexeme : List Char) : Prop :=
  (∃ op : ControlOperator, lexeme = op.spelling.toList) ∨
    ∃ op : RedirectionOperator, lexeme = op.spelling.toList

/-- A run of digits, which is not empty. -/
def IsNumber (lexeme : List Char) : Prop :=
  lexeme ≠ [] ∧ ∀ c ∈ lexeme, c.isDigit = true

/-- A character that begins nothing else, and word characters behind it. -/
def IsName : List Char → Prop
  | [] => False
  | c :: cs => (isBlank c = false ∧ c ∉ operatorChars ∧ c.isDigit = false) ∧
      ∀ d ∈ cs, isWordChar d = true

def IsWord (lexeme : List Char) : Prop :=
  IsNumber lexeme ∨ IsName lexeme

def IsLexeme (lexeme : List Char) : Prop :=
  IsOperator lexeme ∨ IsWord lexeme

instance decidableIsNumber (lexeme : List Char) : Decidable (IsNumber lexeme) :=
  decidable_of_iff (lexeme ≠ [] ∧ lexeme.all Char.isDigit = true)
    (and_congr_right fun _ ↦ List.all_eq_true)

instance decidableIsName : (lexeme : List Char) → Decidable (IsName lexeme)
  | [] => inferInstanceAs (Decidable False)
  | c :: cs =>
    decidable_of_iff ((isBlank c = false ∧ c ∉ operatorChars ∧ c.isDigit = false) ∧
      cs.all isWordChar = true) (and_congr_right fun _ ↦ List.all_eq_true)

instance decidableIsWord (lexeme : List Char) : Decidable (IsWord lexeme) :=
  inferInstanceAs (Decidable (IsNumber lexeme ∨ IsName lexeme))

/-! ## The first character tells the class -/

theorem isOperator_spelling_control (op : ControlOperator) : IsOperator op.spelling.toList :=
  .inl ⟨op, rfl⟩

theorem isOperator_spelling_redirection (op : RedirectionOperator) :
    IsOperator op.spelling.toList :=
  .inr ⟨op, rfl⟩

theorem IsOperator.head_mem {lexeme : List Char} (h : IsOperator lexeme) :
    ∃ c cs, lexeme = c :: cs ∧ c ∈ operatorChars := by
  rcases h with ⟨op, rfl⟩ | ⟨op, rfl⟩
  · rcases op with (_ | _) | (_ | _) | _ <;> exact ⟨_, _, rfl, by decide⟩
  · cases op <;> exact ⟨_, _, rfl, by decide⟩

theorem isDigit_eq_false_of_mem_operatorChars {c : Char} (h : c ∈ operatorChars) :
    c.isDigit = false := by
  have hall : operatorChars.all (fun c ↦ !c.isDigit) = true := by decide
  have hnot := List.all_eq_true.1 hall c h
  exact Bool.not_eq_true' _ ▸ hnot

theorem IsWord.head_not_mem {c : Char} {cs : List Char} (h : IsWord (c :: cs)) :
    c ∉ operatorChars := by
  intro hc
  rcases h with hnumber | hname
  · have hdigit := hnumber.2 c (List.mem_cons_self ..)
    rw [isDigit_eq_false_of_mem_operatorChars hc] at hdigit
    exact absurd hdigit (by decide)
  · exact hname.1.2.1 hc

theorem not_isWord_of_isOperator {lexeme : List Char} (h : IsOperator lexeme) :
    ¬ IsWord lexeme := by
  obtain ⟨c, cs, rfl, hc⟩ := h.head_mem
  exact fun hword ↦ hword.head_not_mem hc

theorem not_isName_of_isNumber {lexeme : List Char} (h : IsNumber lexeme) : ¬ IsName lexeme := by
  cases lexeme with
  | nil => exact id
  | cons c cs =>
    intro hname
    have hdigit := h.2 c (List.mem_cons_self ..)
    rw [hname.1.2.2] at hdigit
    exact absurd hdigit (by decide)

theorem isName_spelling (w : ReservedWord) : IsName w.spelling.toList := by
  cases w <;> decide

theorem IsLexeme.ne_nil {lexeme : List Char} (h : IsLexeme lexeme) : lexeme ≠ [] := by
  rcases h with hop | hnumber | hname
  · obtain ⟨c, cs, rfl, -⟩ := hop.head_mem
    exact List.cons_ne_nil c cs
  · exact hnumber.1
  · rintro rfl
    exact hname

theorem isOperator_of_head_mem {c : Char} {cs : List Char} (h : IsLexeme (c :: cs))
    (hc : c ∈ operatorChars) : IsOperator (c :: cs) :=
  h.resolve_right fun hword ↦ hword.head_not_mem hc

theorem isNumber_of_head_isDigit {c : Char} {cs : List Char} (h : IsLexeme (c :: cs))
    (hc : c.isDigit = true) : IsNumber (c :: cs) := by
  rcases h with hop | hnumber | hname
  · obtain ⟨d, ds, heq, hd⟩ := hop.head_mem
    cases heq
    rw [isDigit_eq_false_of_mem_operatorChars hd] at hc
    exact absurd hc (by decide)
  · exact hnumber
  · rw [hname.1.2.2] at hc
    exact absurd hc (by decide)

theorem isName_of_head {c : Char} {cs : List Char} (h : IsLexeme (c :: cs))
    (hop : c ∉ operatorChars) (hdigit : c.isDigit = false) : IsName (c :: cs) := by
  rcases h with hoperator | hnumber | hname
  · obtain ⟨d, ds, heq, hd⟩ := hoperator.head_mem
    cases heq
    exact absurd hd hop
  · have hc := hnumber.2 c (List.mem_cons_self ..)
    rw [hdigit] at hc
    exact absurd hc (by decide)
  · exact hname

theorem isBlank_eq_false_of_all {chars : List Char}
    (h : chars.all (fun c ↦ !isBlank c) = true) : ∀ c ∈ chars, isBlank c = false := by
  intro c hc
  have hnot := List.all_eq_true.1 h c hc
  exact Bool.not_eq_true' _ ▸ hnot

/-- No lexeme holds a blank character, so blanks always end one. -/
theorem IsLexeme.isBlank_eq_false {lexeme : List Char} (h : IsLexeme lexeme) :
    ∀ c ∈ lexeme, isBlank c = false := by
  rcases h with (⟨op, rfl⟩ | ⟨op, rfl⟩) | hnumber | hname
  · apply isBlank_eq_false_of_all
    rcases op with (_ | _) | (_ | _) | _ <;> decide
  · apply isBlank_eq_false_of_all
    cases op <;> decide
  · intro c hc
    rw [Bool.eq_false_iff]
    intro hblank
    have hdigit := hnumber.2 c hc
    rw [isDigit_eq_false_of_isBlank hblank] at hdigit
    exact absurd hdigit (by decide)
  · cases lexeme with
    | nil => exact hname.elim
    | cons c cs =>
      intro d hd
      rcases List.mem_cons.1 hd with rfl | hd
      · exact hname.1.1
      · rw [Bool.eq_false_iff]
        intro hblank
        have hword := hname.2 d hd
        rw [isWordChar_eq_false_of_isBlank hblank] at hword
        exact absurd hword (by decide)

end ShellLine.Lexicon
