import ShellLine.Proofs.Token.Lexicon

/-!
# The longest lexeme at the front of a text

A text begins with at most one longest lexeme, and the text behind a lexeme
fixes its kind. `Lexeme.ofChars` gives that lexeme and that kind at every
character that is not blank. It looks at most two characters ahead, and the proof
of its operator case shows that no spelling needs more.
-/

namespace ShellLine.Lexicon

open Text

/-! ## Longest lexemes -/

/-- A lexeme at the front of a text, at least as long as every other one there. -/
structure LongestAt (lexeme text : List Char) : Prop where
  isLexeme : IsLexeme lexeme
  front : lexeme <+: text
  longest : ∀ other, IsLexeme other → other <+: text → other.length ≤ lexeme.length

theorem LongestAt.unique {a b text : List Char} (ha : LongestAt a text)
    (hb : LongestAt b text) : a = b := by
  have hle := hb.longest a ha.isLexeme ha.front
  have hge := ha.longest b hb.isLexeme hb.front
  exact (List.prefix_of_prefix_length_le ha.front hb.front hle).eq_of_length
    (Nat.le_antisymm hle hge)

theorem LongestAt.ne_nil {lexeme text : List Char} (h : LongestAt lexeme text) : lexeme ≠ [] :=
  h.isLexeme.ne_nil

/-- In front of a blank character, and at the end of a text, every lexeme is the longest. -/
theorem longestAt_of_blank_behind {lexeme behind : List Char} (h : IsLexeme lexeme)
    (hbehind : ∀ c ∈ behind.head?, isBlank c = true) : LongestAt lexeme (lexeme ++ behind) := by
  refine ⟨h, List.prefix_append lexeme behind, fun other hother hfront ↦ ?_⟩
  rcases Nat.lt_or_ge lexeme.length other.length with hlt | hge
  · obtain ⟨more, rfl⟩ := List.prefix_of_prefix_length_le (List.prefix_append lexeme behind)
      hfront (Nat.le_of_lt hlt)
    rw [List.prefix_append_right_inj] at hfront
    cases more with
    | nil => simp
    | cons c more =>
      obtain ⟨last, rfl⟩ := hfront
      have hblank := hbehind c rfl
      rw [hother.isBlank_eq_false c (by simp)] at hblank
      exact absurd hblank (by decide)
  · exact hge

theorem length_le_length_takeWhile {p : Char → Bool} {lexeme text : List Char}
    (hall : ∀ c ∈ lexeme, p c = true) (hfront : lexeme <+: text) :
    lexeme.length ≤ (text.takeWhile p).length := by
  obtain ⟨behind, rfl⟩ := hfront
  rw [List.takeWhile_append_of_pos hall, List.length_append]
  exact Nat.le_add_right _ _

theorem longestAt_number {c : Char} (cs : List Char) (hc : c.isDigit = true) :
    LongestAt (c :: cs.takeWhile Char.isDigit) (c :: cs) := by
  have hrun : c :: cs.takeWhile Char.isDigit = (c :: cs).takeWhile Char.isDigit := by
    rw [List.takeWhile_cons_of_pos hc]
  rw [hrun]
  refine ⟨.inr (.inl ⟨?_, ?_⟩), List.takeWhile_prefix _, fun other hother hfront ↦ ?_⟩
  · rw [← hrun]
    exact List.cons_ne_nil _ _
  · exact List.all_eq_true.1 List.all_takeWhile
  · obtain ⟨d, ds, rfl⟩ := List.exists_cons_of_ne_nil hother.ne_nil
    obtain ⟨rfl, -⟩ := List.cons_prefix_cons.1 hfront
    exact length_le_length_takeWhile (isNumber_of_head_isDigit hother hc).2 hfront

theorem longestAt_name {c : Char} (cs : List Char) (hblank : isBlank c = false)
    (hop : c ∉ operatorChars) (hdigit : c.isDigit = false) :
    LongestAt (c :: cs.takeWhile isWordChar) (c :: cs) := by
  have hname : IsName (c :: cs.takeWhile isWordChar) :=
    ⟨⟨hblank, hop, hdigit⟩, List.all_eq_true.1 List.all_takeWhile⟩
  refine ⟨.inr (.inr hname), ?_, fun other hother hfront ↦ ?_⟩
  · exact List.cons_prefix_cons.2 ⟨rfl, List.takeWhile_prefix _⟩
  · obtain ⟨d, ds, rfl⟩ := List.exists_cons_of_ne_nil hother.ne_nil
    obtain ⟨rfl, htail⟩ := List.cons_prefix_cons.1 hfront
    have hle := length_le_length_takeWhile (isName_of_head hother hop hdigit).2 htail
    exact Nat.succ_le_succ hle

/-! ## Operators -/

theorem kind_of_operator? {text rest : List Char} {kind : Token.Kind}
    (h : Lexeme.operator? text = some (kind, rest)) :
    (∃ op, kind = .control op) ∨ ∃ op, kind = .redirection op := by
  unfold Lexeme.operator? at h
  split at h <;> cases h <;> simp

theorem isOperator_of_operator? {text rest : List Char} {kind : Token.Kind}
    (h : Lexeme.operator? text = some (kind, rest)) : IsOperator kind.label.toList := by
  rcases kind_of_operator? h with ⟨op, rfl⟩ | ⟨op, rfl⟩
  · exact isOperator_spelling_control op
  · exact isOperator_spelling_redirection op

theorem operator?_eq_none_iff {c : Char} {cs : List Char} :
    Lexeme.operator? (c :: cs) = none ↔ c ∉ operatorChars := by
  constructor
  · intro h hc
    simp only [operatorChars, List.mem_cons, List.not_mem_nil, or_false] at hc
    unfold Lexeme.operator? at h
    rcases hc with rfl | rfl | rfl | rfl | rfl <;> split at h <;> cases h <;> simp_all
  · intro h
    cases hread : Lexeme.operator? (c :: cs) with
    | none => rfl
    | some read =>
      obtain ⟨d, ds, hcons, hd⟩ := (isOperator_of_operator? hread).head_mem
      have htext := Lexeme.eq_append_of_operator? hread
      rw [hcons, List.cons_append] at htext
      exact absurd ((List.cons.inj htext).1 ▸ hd) h

theorem length_le_of_operator? {text rest other : List Char} {kind : Token.Kind}
    (h : Lexeme.operator? text = some (kind, rest)) (hother : IsOperator other)
    (hfront : other <+: text) : other.length ≤ kind.label.toList.length := by
  obtain ⟨behind, rfl⟩ := hfront
  have hpos := List.length_pos_iff.2 kind.label_ne_nil
  rcases hother with ⟨op, rfl⟩ | ⟨op, rfl⟩
  · match op with
    | .separator .semicolon => exact hpos
    | .separator .ampersand => exact hpos
    | .pipe => exact hpos
    | .conditional .and => cases h; decide
    | .conditional .or => cases h; decide
  · match op with
    | .read => exact hpos
    | .write => exact hpos
    | .hereDocumentStripped => cases h; decide
    | .duplicateInput => cases h; decide
    | .readWrite => cases h; decide
    | .append => cases h; decide
    | .duplicateOutput => cases h; decide
    | .clobber => cases h; decide
    | .hereDocument =>
      -- The only spelling of two characters that a third may extend.
      cases behind with
      | nil => cases h; decide
      | cons c behind =>
        by_cases hc : c = '-'
        · subst hc
          cases h
          decide
        · have hread : Lexeme.operator? ('<' :: '<' :: c :: behind) =
              some (.redirection .hereDocument, c :: behind) := by
            simp [Lexeme.operator?, hc]
          cases hread.symm.trans h
          decide

theorem longestAt_operator {text rest : List Char} {kind : Token.Kind}
    (h : Lexeme.operator? text = some (kind, rest)) : LongestAt kind.label.toList text := by
  have hoperator := isOperator_of_operator? h
  have htext := Lexeme.eq_append_of_operator? h
  refine ⟨.inl hoperator, ⟨rest, htext.symm⟩, fun other hother hfront ↦ ?_⟩
  obtain ⟨c, cs, hcons, hc⟩ := hoperator.head_mem
  obtain ⟨d, ds, rfl⟩ := List.exists_cons_of_ne_nil hother.ne_nil
  have hhead : d = c := by
    rw [htext, hcons] at hfront
    exact (List.cons_prefix_cons.1 hfront).1
  exact length_le_of_operator? h (isOperator_of_head_mem hother (hhead ▸ hc)) hfront

/-! ## Kinds -/

/-- The next character begins a redirection operator. -/
def TouchesRedirection (behind : List Char) : Prop :=
  behind.head? = some '<' ∨ behind.head? = some '>'

instance decidableTouchesRedirection (behind : List Char) : Decidable (TouchesRedirection behind) :=
  inferInstanceAs (Decidable (behind.head? = some '<' ∨ behind.head? = some '>'))

theorem not_touchesRedirection_of_blank {behind : List Char}
    (h : ∀ c ∈ behind.head?, isBlank c = true) : ¬ TouchesRedirection behind := by
  rintro (hhead | hhead)
  · exact absurd (h '<' hhead) (by decide)
  · exact absurd (h '>' hhead) (by decide)

/-- The kind of a lexeme in front of a text. A single digit that touches a redirection operator
is a descriptor; a name spelled as a reserved word is reserved. -/
def HasKind (lexeme behind : List Char) : Token.Kind → Prop
  | .eof => False
  | .control op => lexeme = op.spelling.toList
  | .redirection op => lexeme = op.spelling.toList
  | .reserved w => lexeme = w.spelling.toList
  | .ioNumber => IsNumber lexeme ∧ lexeme.length = 1 ∧ TouchesRedirection behind
  | .word => (IsNumber lexeme ∧ ¬ (lexeme.length = 1 ∧ TouchesRedirection behind)) ∨
      (IsName lexeme ∧ ∀ w : ReservedWord, lexeme ≠ w.spelling.toList)

theorem startsRedirection_iff {behind : List Char} :
    Lexeme.startsRedirection behind = true ↔ TouchesRedirection behind := by
  cases behind <;> simp [Lexeme.startsRedirection, TouchesRedirection]

theorem hasKind_operator {lexeme behind : List Char} {kind : Token.Kind}
    (h : HasKind lexeme behind kind) (hop : IsOperator lexeme) : lexeme = kind.label.toList := by
  have hword := not_isWord_of_isOperator hop
  cases kind with
  | eof => exact h.elim
  | control op => exact h
  | redirection op => exact h
  | reserved w => exact h
  | ioNumber => exact absurd (.inl h.1) hword
  | word => exact absurd (h.imp And.left And.left) hword

theorem hasKind_number {lexeme behind : List Char} {kind : Token.Kind}
    (h : HasKind lexeme behind kind) (hnumber : IsNumber lexeme) :
    kind = .ioNumber ∧ lexeme.length = 1 ∧ TouchesRedirection behind ∨
      kind = .word ∧ ¬ (lexeme.length = 1 ∧ TouchesRedirection behind) := by
  have hname := not_isName_of_isNumber hnumber
  cases kind with
  | eof => exact h.elim
  | control op => exact absurd (.inl hnumber) (not_isWord_of_isOperator (.inl ⟨op, h⟩))
  | redirection op => exact absurd (.inl hnumber) (not_isWord_of_isOperator (.inr ⟨op, h⟩))
  | reserved w => exact absurd (h ▸ isName_spelling w) hname
  | ioNumber => exact .inl ⟨rfl, h.2⟩
  | word => exact .inr ⟨rfl, h.elim And.right fun h ↦ absurd h.1 hname⟩

theorem hasKind_name {lexeme behind : List Char} {kind : Token.Kind}
    (h : HasKind lexeme behind kind) (hname : IsName lexeme) :
    kind = Lexeme.wordKind lexeme := by
  have hnumber : ¬ IsNumber lexeme := fun hnumber ↦ not_isName_of_isNumber hnumber hname
  cases kind with
  | eof => exact h.elim
  | control op => exact absurd (.inr hname) (not_isWord_of_isOperator (.inl ⟨op, h⟩))
  | redirection op => exact absurd (.inr hname) (not_isWord_of_isOperator (.inr ⟨op, h⟩))
  | ioNumber => exact absurd h.1 hnumber
  | reserved w =>
    have hspelling : lexeme = w.spelling.toList := h
    rw [hspelling, Lexeme.wordKind, String.ofList_toList, ReservedWord.ofString?_spelling]
  | word =>
    have hfree := (h.resolve_left fun h ↦ hnumber h.1).2
    unfold Lexeme.wordKind
    split
    · next w hw =>
      have hspelling := ReservedWord.ofString?_eq_some_iff.1 hw
      exact absurd (by rw [hspelling, String.toList_ofList]) (hfree w)
    · rfl

/-- A lexeme and the text behind it have one kind. -/
theorem HasKind.unique {lexeme behind : List Char} {a b : Token.Kind}
    (hlexeme : IsLexeme lexeme) (ha : HasKind lexeme behind a) (hb : HasKind lexeme behind b) :
    a = b := by
  rcases hlexeme with hop | hnumber | hname
  · apply Token.Kind.label_injective
    rw [← String.toList_inj, ← hasKind_operator ha hop, ← hasKind_operator hb hop]
  · rcases hasKind_number ha hnumber with ⟨rfl, htouch⟩ | ⟨rfl, hapart⟩ <;>
      rcases hasKind_number hb hnumber with ⟨rfl, htouch'⟩ | ⟨rfl, hapart'⟩
    · rfl
    · exact absurd htouch hapart'
    · exact absurd htouch' hapart
    · rfl
  · rw [hasKind_name ha hname, hasKind_name hb hname]

theorem hasKind_wordKind_of_isName {lexeme : List Char} (h : IsName lexeme)
    (behind : List Char) : HasKind lexeme behind (Lexeme.wordKind lexeme) := by
  unfold Lexeme.wordKind
  split
  · next w hw =>
    have hspelling := ReservedWord.ofString?_eq_some_iff.1 hw
    change lexeme = w.spelling.toList
    rw [hspelling, String.toList_ofList]
  · next hnone =>
    refine .inr ⟨h, fun w hspelling ↦ ?_⟩
    rw [hspelling, String.ofList_toList, ReservedWord.ofString?_spelling] at hnone
    exact absurd hnone (by simp)

theorem hasKind_number_run {c : Char} (cs : List Char) (hc : c.isDigit = true) :
    HasKind (c :: cs.takeWhile Char.isDigit) (cs.dropWhile Char.isDigit)
      (if Lexeme.startsRedirection cs then .ioNumber else .word) := by
  have hnumber : IsNumber (c :: cs.takeWhile Char.isDigit) := by
    refine ⟨List.cons_ne_nil _ _, List.forall_mem_cons.2 ⟨hc, ?_⟩⟩
    exact List.all_eq_true.1 List.all_takeWhile
  cases cs with
  | nil => exact .inl ⟨hnumber, fun h ↦ by simp [TouchesRedirection] at h⟩
  | cons d ds =>
    by_cases htouch : Lexeme.startsRedirection (d :: ds) = true
    · have hd : d.isDigit = false := by
        rcases startsRedirection_iff.1 htouch with h | h <;> cases h <;> decide
      rw [if_pos htouch]
      rw [List.takeWhile_cons_of_neg (by simp [hd])] at hnumber ⊢
      rw [List.dropWhile_cons_of_neg (by simp [hd])]
      exact ⟨hnumber, rfl, startsRedirection_iff.1 htouch⟩
    · rw [if_neg htouch]
      refine .inl ⟨hnumber, fun ⟨hone, h⟩ ↦ ?_⟩
      -- A run of one digit ends in front of the character that was looked at.
      by_cases hd : d.isDigit = true
      · rw [List.takeWhile_cons_of_pos hd] at hone
        simp at hone
      · rw [List.dropWhile_cons_of_neg hd] at h
        exact htouch (startsRedirection_iff.2 h)

/-! ## Reading one lexeme -/

theorem ofChars_of_isDigit {c : Char} (cs : List Char) (hc : c.isDigit = true) :
    Lexeme.ofChars c cs = ⟨if Lexeme.startsRedirection cs then .ioNumber else .word,
      c :: cs.takeWhile Char.isDigit, cs.dropWhile Char.isDigit⟩ := by
  have hop : c ∉ operatorChars := fun h ↦ by
    rw [isDigit_eq_false_of_mem_operatorChars h] at hc
    exact absurd hc (by decide)
  unfold Lexeme.ofChars
  rw [operator?_eq_none_iff.2 hop]
  by_cases htouch : Lexeme.startsRedirection cs = true
  · cases cs with
    | nil => exact absurd htouch (by decide)
    | cons d ds =>
      have hd : d.isDigit = false := by
        rcases startsRedirection_iff.1 htouch with h | h <;> cases h <;> decide
      simp [hc, htouch, hd]
  · simp [hc, htouch]

theorem ofChars_of_name {c : Char} (cs : List Char) (hop : c ∉ operatorChars)
    (hdigit : c.isDigit = false) :
    Lexeme.ofChars c cs = ⟨Lexeme.wordKind (c :: cs.takeWhile isWordChar),
      c :: cs.takeWhile isWordChar, cs.dropWhile isWordChar⟩ := by
  unfold Lexeme.ofChars
  rw [operator?_eq_none_iff.2 hop]
  simp [hdigit]

/-- What is read at a character that is not blank is the longest lexeme there, with its kind. -/
theorem ofChars_spec {c : Char} (cs : List Char) (hblank : isBlank c = false) :
    LongestAt (Lexeme.ofChars c cs).chars (c :: cs) ∧
      HasKind (Lexeme.ofChars c cs).chars (Lexeme.ofChars c cs).rest
        (Lexeme.ofChars c cs).kind := by
  cases hread : Lexeme.operator? (c :: cs) with
  | some read =>
    obtain ⟨kind, rest⟩ := read
    have hof : Lexeme.ofChars c cs = ⟨kind, kind.label.toList, rest⟩ := by
      rw [Lexeme.ofChars, hread]
    rw [hof]
    refine ⟨longestAt_operator hread, ?_⟩
    rcases kind_of_operator? hread with ⟨op, rfl⟩ | ⟨op, rfl⟩ <;> rfl
  | none =>
    have hop := operator?_eq_none_iff.1 hread
    by_cases hdigit : c.isDigit = true
    · rw [ofChars_of_isDigit cs hdigit]
      exact ⟨longestAt_number cs hdigit, hasKind_number_run cs hdigit⟩
    · rw [Bool.not_eq_true] at hdigit
      rw [ofChars_of_name cs hop hdigit]
      have hlongest := longestAt_name cs hblank hop hdigit
      refine ⟨hlongest, hasKind_wordKind_of_isName ?_ _⟩
      exact isName_of_head hlongest.isLexeme hop hdigit

end ShellLine.Lexicon
