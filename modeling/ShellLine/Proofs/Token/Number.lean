import ShellLine.Proofs.Token.Offset
import ShellLine.Proofs.Token.Terminal

/-!
# Numbers are told by their neighbours

Whether a digit is a number that belongs to a redirection can be told from the character
in front of it and the one behind it. Behind it a redirection operator has to begin. In
front of it no word may end, for the digit would be part of the word. So there is
nothing, a blank or an operator; and the only operator that does not end in a character
of its own is `<<-`, whose last character could as well begin a word.
-/

namespace ShellLine

open Text Lexicon

/-! ## Lexemes and digits -/

namespace Lexicon

theorem isWordChar_eq_false_of_mem_operatorChars {c : Char} (h : c ∈ operatorChars) :
    isWordChar c = false := by
  have hall : operatorChars.all (fun c ↦ !isWordChar c) = true := by decide
  have hnot := List.all_eq_true.1 hall c h
  exact Bool.not_eq_true' _ ▸ hnot

theorem IsOperator.isDigit_eq_false {lexeme : List Char} (h : IsOperator lexeme) :
    ∀ c ∈ lexeme, c.isDigit = false := by
  have hnone : ∀ chars : List Char, chars.all (fun c ↦ !c.isDigit) = true →
      ∀ c ∈ chars, c.isDigit = false := by
    intro chars hall c hc
    have hnot := List.all_eq_true.1 hall c hc
    exact Bool.not_eq_true' _ ▸ hnot
  apply hnone
  rcases h with ⟨op, rfl⟩ | ⟨op, rfl⟩
  · rcases op with (_ | _) | (_ | _) | _ <;> decide
  · cases op <;> decide

/-- The characters of the operators and the digits are never in one lexeme. -/
theorem IsLexeme.not_mem_operatorChars {lexeme : List Char} (h : IsLexeme lexeme) {c d : Char}
    (hc : c ∈ lexeme) (hd : d ∈ lexeme) (hdigit : d.isDigit = true) : c ∉ operatorChars := by
  intro hop
  rcases h with hoperator | hnumber | hname
  · rw [hoperator.isDigit_eq_false d hd] at hdigit
    cases hdigit
  · have hnumeral := hnumber.2 c hc
    rw [isDigit_eq_false_of_mem_operatorChars hop] at hnumeral
    cases hnumeral
  · cases lexeme with
    | nil => cases hc
    | cons first rest =>
      rcases List.mem_cons.1 hc with rfl | hrest
      · exact hname.1.2.1 hop
      · have hword := hname.2 c hrest
        rw [isWordChar_eq_false_of_mem_operatorChars hop] at hword
        cases hword

/-- A digit makes every word longer that ends in front of it. -/
theorem IsWord.concat_digit {lexeme : List Char} (h : IsWord lexeme) {d : Char}
    (hd : d.isDigit = true) : IsWord (lexeme ++ [d]) := by
  rcases h with hnumber | hname
  · refine .inl ⟨?_, List.forall_mem_append.2 ⟨hnumber.2, List.forall_mem_singleton.2 hd⟩⟩
    exact List.append_ne_nil_of_right_ne_nil _ (List.cons_ne_nil d [])
  · cases lexeme with
    | nil => exact hname.elim
    | cons first rest =>
      have hlast : ∀ c ∈ [d], isWordChar c = true :=
        List.forall_mem_singleton.2 (isWordChar_of_isDigit hd)
      exact .inr ⟨hname.1, List.forall_mem_append.2 ⟨hname.2, hlast⟩⟩

theorem LongestAt.isOperator_of_digit_behind {lexeme behind : List Char} {d : Char}
    (h : LongestAt lexeme (lexeme ++ d :: behind)) (hd : d.isDigit = true) :
    IsOperator lexeme := by
  refine h.isLexeme.resolve_right fun hword ↦ ?_
  have hfront : lexeme ++ [d] <+: lexeme ++ d :: behind :=
    (List.prefix_append_right_inj lexeme).2 ⟨behind, rfl⟩
  have hlonger := h.longest (lexeme ++ [d]) (.inr (hword.concat_digit hd)) hfront
  rw [List.length_append, List.length_singleton] at hlonger
  exact Nat.not_succ_le_self _ hlonger

/-- All operators but one end in a character with which operators begin, too. -/
theorem IsOperator.getLast?_mem {lexeme : List Char} (h : IsOperator lexeme) {c : Char}
    (hc : lexeme.getLast? = some c) :
    c ∈ operatorChars ∨
      c = '-' ∧ lexeme = RedirectionOperator.hereDocumentStripped.spelling.toList := by
  rcases h with ⟨op, rfl⟩ | ⟨op, rfl⟩
  · left
    rcases op with (_ | _) | (_ | _) | _ <;> cases hc <;> decide
  · by_cases hop : op = .hereDocumentStripped
    · subst hop
      cases hc
      exact .inr ⟨rfl, rfl⟩
    · left
      cases op <;> first | exact absurd rfl hop | (cases hc; decide)

end Lexicon

/-! ## A number and what is next to it -/

namespace Located

variable {text : List Char} {located number : Located}

theorem ReadIn.neighbours_of_number (h : number.ReadIn text)
    (hnumber : number.token.kind = .ioNumber) :
    ∃ d, text[number.offset]? = some d ∧ d.isDigit = true ∧ number.token.value.toList = [d] ∧
      (text[number.offset + 1]? = some '<' ∨ text[number.offset + 1]? = some '>') := by
  obtain ⟨behind, hchars, -, hkind⟩ := h.exists_behind
  rw [hnumber] at hkind
  obtain ⟨hdigits, hone, htouch⟩ := hkind
  obtain ⟨d, hd⟩ := List.length_eq_one_iff.1 hone
  rw [hd] at hchars hdigits
  have hnext : text[number.offset + 1]? = behind.head? := by
    rw [hchars, List.head?_eq_getElem?]
    rfl
  rw [hnext]
  exact ⟨d, hchars 0, hdigits.2 d (List.mem_singleton_self d), hd, htouch⟩

/-- A digit at which a token begins, in front of a redirection operator, is a number. -/
theorem ReadIn.kind_eq_ioNumber (h : located.ReadIn text) {d : Char}
    (hd : text[located.offset]? = some d) (hdigit : d.isDigit = true)
    (htouch : text[located.offset + 1]? = some '<' ∨ text[located.offset + 1]? = some '>') :
    located.token.kind = .ioNumber := by
  obtain ⟨behind, hchars, hlongest, hkind⟩ := h.exists_behind
  obtain ⟨c, cs, hvalue⟩ := List.exists_cons_of_ne_nil hlongest.ne_nil
  rw [hvalue] at hchars hkind hlongest
  have hfirst : c = d := Option.some.inj ((hchars 0).symm.trans hd)
  subst hfirst
  have hnumber := isNumber_of_head_isDigit hlongest.isLexeme hdigit
  cases cs with
  | cons e es =>
    -- The operator would be inside the run of digits.
    have hinside : text[located.offset + 1]? = some e := hchars 1
    have heDigit := hnumber.2 e (by simp)
    rw [hinside] at htouch
    rcases htouch with he | he <;> cases he <;> cases heDigit
  | nil =>
    have hnext : text[located.offset + 1]? = behind.head? := by
      rw [hchars, List.head?_eq_getElem?]
      rfl
    rw [hnext] at htouch
    rcases hasKind_number hkind hnumber with ⟨hio, -⟩ | ⟨-, hapart⟩
    · exact hio
    · exact absurd ⟨rfl, htouch⟩ hapart

end Located

/-- What ends directly in front of an offset: nothing, a blank, an operator by its last character,
or `<<-` as a whole. -/
def EndsInFront (text : List Char) (tokens : List Located) (p : Nat) : Prop :=
  p = 0 ∨ ∃ q c, p = q + 1 ∧ text[q]? = some c ∧
    (isBlank c = true ∨ c ∈ operatorChars ∨
      c = '-' ∧ ∃ opener ∈ tokens,
        opener.token.kind = .redirection .hereDocumentStripped ∧ opener.stop = p)

namespace ReadFrom

variable {text : List Char} {tokens : List Located} {number located : Located} {p : Nat} {d : Char}

/-- A token that ends where a digit begins another one is an operator. -/
theorem isOperator_of_stop (h : ReadFrom text 0 tokens) (hmem : located ∈ tokens)
    (hd : text[located.stop]? = some d) (hdigit : d.isDigit = true) :
    IsOperator located.token.value.toList := by
  obtain ⟨behind, hchars, hlongest, -⟩ := (h.readIn hmem).exists_behind
  have hhead : behind.head? = some d := by
    rw [List.head?_eq_getElem?, ← hd, Located.stop, hchars,
      List.getElem?_append_right (Nat.le_refl _), Nat.sub_self]
  obtain ⟨rest, rfl⟩ := List.head?_eq_some_iff.1 hhead
  exact hlongest.isOperator_of_digit_behind hdigit

theorem endsInFront_of_number (h : ReadFrom text 0 tokens) (hmem : number ∈ tokens)
    (hnumber : number.token.kind = .ioNumber) : EndsInFront text tokens number.offset := by
  obtain ⟨d, hd, hdigit, -, -⟩ := (h.readIn hmem).neighbours_of_number hnumber
  cases hoffset : number.offset with
  | zero => exact .inl rfl
  | succ q =>
    rw [hoffset] at hd
    have hlt : q < text.length := Nat.lt_of_succ_lt (List.getElem?_eq_some_iff.1 hd).1
    have hc := List.getElem?_eq_getElem hlt
    refine .inr ⟨q, text[q], rfl, hc, ?_⟩
    by_cases hblank : isBlank text[q] = true
    · exact .inl hblank
    obtain ⟨located, hlocated, hcovers⟩ :=
      h.exists_covers (Nat.zero_le q) hc (Bool.not_eq_true _ ▸ hblank)
    have hstop := h.stop_eq_of_covers hlocated hmem hcovers hoffset
    have hoperator := h.isOperator_of_stop hlocated (hstop ▸ hd) hdigit
    have hlast := (h.readIn hlocated).getLast?_value hstop
    rw [hc] at hlast
    rcases hoperator.getLast?_mem hlast with hmemChars | ⟨hdash, hspelling⟩
    · exact .inr (.inl hmemChars)
    · refine .inr (.inr ⟨hdash, located, hlocated, ?_, hstop⟩)
      obtain ⟨behind, -, -, hkind⟩ := (h.readIn hlocated).exists_behind
      exact hkind.unique (h.readIn hlocated).isLexeme
        (show HasKind _ behind (.redirection .hereDocumentStripped) from hspelling)

/-- Behind what ends there, a digit begins a token. -/
theorem offset_eq_of_endsInFront (h : ReadFrom text 0 tokens) (hmem : located ∈ tokens)
    (hcovers : located.Covers p) (hd : text[p]? = some d) (hdigit : d.isDigit = true)
    (hfront : EndsInFront text tokens p) : located.offset = p := by
  rcases Nat.eq_or_lt_of_le hcovers.1 with hoffset | hlt
  · exact hoffset
  rcases hfront with rfl | ⟨q, c, rfl, hc, hends⟩
  · exact absurd hlt (Nat.not_lt_zero _)
  -- Else the character in front of the digit would be part of the same lexeme.
  have hinside : located.Covers q := ⟨Nat.le_of_lt_succ hlt, Nat.lt_of_succ_lt hcovers.2⟩
  have hread := h.readIn hmem
  have hmemC := hread.mem_value hinside hc
  have hmemD := hread.mem_value hcovers hd
  rcases hends with hblank | hop | ⟨-, opener, hopener, -, hstop⟩
  · rw [hread.isLexeme.isBlank_eq_false c hmemC] at hblank
    cases hblank
  · exact absurd hop (hread.isLexeme.not_mem_operatorChars hmemC hmemD hdigit)
  · have hstart : opener.offset < q + 1 := hstop ▸ (h.readIn hopener).covers_offset.2
    have hends : opener.Covers q := ⟨Nat.le_of_lt_succ hstart, hstop ▸ Nat.lt_succ_self q⟩
    have hsame := h.eq_of_covers hopener hmem hends hinside
    have hend := hcovers.2
    rw [← hsame, hstop] at hend
    exact absurd hend (Nat.lt_irrefl _)

/-- The redirection operator that touches a number is the next token. -/
theorem exists_next_of_number {start : Nat} {rest : List Located}
    (h : ReadFrom text start (number :: rest)) (hnumber : number.token.kind = .ioNumber) :
    ∃ op next more, rest = next :: more ∧ next.token.kind = .redirection op ∧
      next.offset = number.offset + 1 ∧ next.token.position = number.token.position.advance 1 := by
  obtain ⟨-, -, hread, hrest⟩ := h
  obtain ⟨d, -, -, hvalue, htouch⟩ := hread.neighbours_of_number hnumber
  have hstop : number.stop = number.offset + 1 := by
    rw [Located.stop, hvalue]
    rfl
  obtain ⟨c, hc, hblank⟩ : ∃ c, text[number.stop]? = some c ∧ isBlank c = false := by
    rw [hstop]
    rcases htouch with hc | hc
    · exact ⟨'<', hc, by decide⟩
    · exact ⟨'>', hc, by decide⟩
  obtain ⟨next, more, rfl, hoffset⟩ := hrest.exists_next hc hblank
  have hnext : next.ReadIn text := hrest.2.2.1
  obtain ⟨behind, hchars, -, hkind⟩ := hnext.exists_behind
  have htouches : TouchesRedirection next.token.value.toList := by
    obtain ⟨c, cs, hcons⟩ := List.exists_cons_of_ne_nil hnext.isLexeme.ne_nil
    rw [← hstop, ← hoffset, ← Nat.add_zero next.offset, hchars, hcons] at htouch
    rw [hcons]
    exact htouch
  obtain ⟨op, hop⟩ := exists_redirection_of_head hnext.isLexeme htouches hkind
  have hposition := hread.position_of_offset_eq_stop hnext hoffset
  rw [hvalue] at hposition
  exact ⟨op, next, more, rfl, hop, hoffset.trans hstop, hposition⟩

end ReadFrom

/-- A number begins at an offset exactly if a digit is there, `<` or `>` is behind it, and nothing,
a blank or an operator ends in front of it. Its value is the digit, and the next token is a
redirection operator directly behind it. -/
theorem ioNumber_iff_neighbours (text : String) :
    (locatedTokens text).map Located.token = tokenize text ∧
      (∀ p, (∃ number ∈ locatedTokens text,
          number.offset = p ∧ number.token.kind = .ioNumber) ↔
        (∃ d, text.toList[p]? = some d ∧ d.isDigit = true) ∧
          (text.toList[p + 1]? = some '<' ∨ text.toList[p + 1]? = some '>') ∧
          EndsInFront text.toList (locatedTokens text) p) ∧
      ∀ before number rest, locatedTokens text = before ++ number :: rest →
        number.token.kind = .ioNumber →
          ∃ d op next more, text.toList[number.offset]? = some d ∧ d.isDigit = true ∧
            number.token.value = String.singleton d ∧ rest = next :: more ∧
            next.token.kind = .redirection op ∧
            next.token.position.line = number.token.position.line ∧
            next.token.position.column = number.token.position.column + 1 := by
  have hread := readFrom_locatedTokens text
  refine ⟨map_token_locatedTokens text, fun p ↦ ⟨?_, ?_⟩, ?_⟩
  · rintro ⟨number, hmem, rfl, hnumber⟩
    obtain ⟨d, hd, hdigit, -, htouch⟩ := (hread.readIn hmem).neighbours_of_number hnumber
    exact ⟨⟨d, hd, hdigit⟩, htouch, hread.endsInFront_of_number hmem hnumber⟩
  · rintro ⟨⟨d, hd, hdigit⟩, htouch, hfront⟩
    have hblank : isBlank d = false := by
      rw [Bool.eq_false_iff]
      intro hblank
      rw [isDigit_eq_false_of_isBlank hblank] at hdigit
      cases hdigit
    obtain ⟨located, hmem, hcovers⟩ := hread.exists_covers (Nat.zero_le p) hd hblank
    obtain rfl := hread.offset_eq_of_endsInFront hmem hcovers hd hdigit hfront
    exact ⟨located, hmem, rfl, (hread.readIn hmem).kind_eq_ioNumber hd hdigit htouch⟩
  · intro before number rest htokens hnumber
    rw [htokens] at hread
    obtain ⟨start, hbehind⟩ := hread.exists_of_append
    obtain ⟨d, hd, hdigit, hvalue, -⟩ := hbehind.2.2.1.neighbours_of_number hnumber
    obtain ⟨op, next, more, hrest, hop, -, hposition⟩ := hbehind.exists_next_of_number hnumber
    have hsingle : number.token.value = String.singleton d := by
      rw [← String.toList_inj, hvalue, String.toList_singleton]
    exact ⟨d, op, next, more, hd, hdigit, hsingle, hrest, hop,
      by rw [hposition, Position.advance], by rw [hposition, Position.advance]⟩

theorem ioNumber_iff_neighbours_behind_dash :
    EndsInFront "-3>b<<-4<c".toList (locatedTokens "-3>b<<-4<c") 7 ∧
      ¬ EndsInFront "-3>b<<-4<c".toList (locatedTokens "-3>b<<-4<c") 1 ∧
      ∃ before number rest, locatedTokens "-3>b<<-4<c" = before ++ number :: rest ∧
        number.token = ⟨.ioNumber, "4", ⟨1, 8⟩⟩ ∧
        ∃ op next more, rest = next :: more ∧ next.token.kind = .redirection op ∧
          next.token.position.line = 1 ∧ next.token.position.column = 8 + 1 := by
  have htokens : locatedTokens "-3>b<<-4<c" =
      [⟨0, ⟨.word, "-3", ⟨1, 1⟩⟩⟩, ⟨2, ⟨.redirection .write, ">", ⟨1, 3⟩⟩⟩,
        ⟨3, ⟨.word, "b", ⟨1, 4⟩⟩⟩,
        ⟨4, ⟨.redirection .hereDocumentStripped, "<<-", ⟨1, 5⟩⟩⟩] ++
      ⟨7, ⟨.ioNumber, "4", ⟨1, 8⟩⟩⟩ ::
        [⟨8, ⟨.redirection .read, "<", ⟨1, 9⟩⟩⟩, ⟨9, ⟨.word, "c", ⟨1, 10⟩⟩⟩] := by
    decide +kernel
  obtain ⟨-, hiff, hnext⟩ := ioNumber_iff_neighbours "-3>b<<-4<c"
  have hnumber : ∃ number ∈ locatedTokens "-3>b<<-4<c",
      number.offset = 7 ∧ number.token.kind = .ioNumber := by
    rw [htokens]
    decide
  have hnone : ¬ ∃ number ∈ locatedTokens "-3>b<<-4<c",
      number.offset = 1 ∧ number.token.kind = .ioNumber := by
    rw [htokens]
    decide
  obtain ⟨d, op, next, more, -, -, -, hmore⟩ := hnext _ _ _ htokens rfl
  refine ⟨((hiff 7).1 hnumber).2.2, fun hfront ↦ hnone ?_, _, _, _, htokens, rfl, op, next, more,
    hmore⟩
  exact (hiff 1).2 ⟨⟨'3', by decide, by decide⟩, by decide, hfront⟩

end ShellLine
