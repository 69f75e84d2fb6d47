import ShellLine.Proofs.Token.Counting

/-!
# Tokens by their offsets

The offset of a token is the number of characters in front of it. Read from left to
right, the tokens of a text lie behind each other, with nothing but blanks between them.
So each character that is not blank is part of one token, and of no other.
-/

namespace ShellLine

open Text Lexicon

theorem Position.behind_append_of_unbroken {passed : List Char}
    (h : ∀ c ∈ passed, isLineBreak c = false) (front : List Char) :
    behind (front ++ passed) = (behind front).advance passed.length := by
  induction passed generalizing front with
  | nil =>
    rw [List.append_nil]
    rfl
  | cons c passed ih =>
    obtain ⟨hc, hpassed⟩ := List.forall_mem_cons.1 h
    calc behind (front ++ c :: passed)
        = behind (front ++ [c] ++ passed) := by rw [List.append_assoc, List.singleton_append]
      _ = (behind (front ++ [c])).advance passed.length := ih hpassed (front ++ [c])
      _ = ((behind front).advance 1).advance passed.length := by
        rw [behind_concat_of_not_isLineBreak hc]
      _ = (behind front).advance (c :: passed).length := by
        rw [advance_advance, List.length_cons, Nat.add_comm]

/-! ## Offsets -/

/-- A token with the number of characters in front of it. -/
structure Located where
  offset : Nat
  token : Token
  deriving DecidableEq

namespace Located

/-- The offset behind the last character of the token. -/
def stop (located : Located) : Nat :=
  located.offset + located.token.value.toList.length

/-- The character at an offset is part of the token. -/
def Covers (located : Located) (p : Nat) : Prop :=
  located.offset ≤ p ∧ p < located.stop

/-- The token is what a text says at its offset: the longest lexeme there, with its kind. -/
def ReadIn (located : Located) (text : List Char) : Prop :=
  ∃ front behind, text = front ++ (located.token.value.toList ++ behind) ∧
    located.offset = front.length ∧ located.token.position = .behind front ∧
    LongestAt located.token.value.toList (located.token.value.toList ++ behind) ∧
    HasKind located.token.value.toList behind located.token.kind

end Located

namespace Cursor

/-- The number of characters of a text that are not ahead of a cursor in it. -/
def offsetIn (cursor : Cursor) (text : List Char) : Nat :=
  text.length - cursor.rest.length

/-- All tokens ahead, each with its offset in a text. -/
def located (cursor : Cursor) (text : List Char) : List Located :=
  match _h : cursor.next? with
  | none => []
  | some (token, after) => ⟨cursor.skipBlanks.offsetIn text, token⟩ :: after.located text
termination_by cursor.rest.length
decreasing_by exact length_rest_lt_of_next? _h

theorem map_token_located (cursor : Cursor) (text : List Char) :
    (cursor.located text).map Located.token = cursor.drain.1 := by
  fun_induction located cursor text with
  | case1 cursor hnone =>
    rw [drain_of_next?_eq_none hnone]
    rfl
  | case2 cursor token after hnext ih =>
    rw [drain_of_next?_eq_some hnext, List.map_cons, ih]

end Cursor

/-- The tokens of a text with their offsets. -/
def locatedTokens (text : String) : List Located :=
  (Cursor.ofText text).located text.toList

theorem map_token_locatedTokens (text : String) :
    (locatedTokens text).map Located.token = tokenize text :=
  (Cursor.ofText text).map_token_located text.toList

/-! ## Tokens lie behind each other -/

/-- No other characters than blanks stand from one offset up to another. -/
def BlankBetween (text : List Char) (start stop : Nat) : Prop :=
  ∀ p c, start ≤ p → p < stop → text[p]? = some c → isBlank c = true

theorem blankBetween_append (front rest : List Char) {blanks : List Char}
    (h : ∀ c ∈ blanks, isBlank c = true) :
    BlankBetween (front ++ (blanks ++ rest)) front.length (front ++ blanks).length := by
  intro p c hstart hstop hc
  rw [List.length_append] at hstop
  rw [List.getElem?_append_right hstart, List.getElem?_append_left (by omega)] at hc
  exact h c (List.mem_of_getElem? hc)

/-- What can be read of a text from an offset on: tokens one behind the other, with blanks in front
of each and at the end. -/
def ReadFrom (text : List Char) (start : Nat) : List Located → Prop
  | [] => BlankBetween text start text.length
  | located :: rest => start ≤ located.offset ∧ BlankBetween text start located.offset ∧
      located.ReadIn text ∧ ReadFrom text located.stop rest

namespace Cursor

variable {cursor after : Cursor} {token : Token} {text front : List Char}

theorem offsetIn_eq (h : text = front ++ cursor.rest) : cursor.offsetIn text = front.length := by
  rw [offsetIn, h, List.length_append, Nat.add_sub_cancel]

/-- One token is read where the cursor has skipped the blanks. -/
theorem CountsIn.readIn (h : cursor.CountsIn text) (hnext : cursor.next? = some (token, after)) :
    (Located.mk (cursor.skipBlanks.offsetIn text) token).ReadIn text := by
  obtain ⟨front, htext, hposition, -⟩ := h.reaches cursor.reaches_skipBlanks
  obtain ⟨blanks, c, cs, -, -, hc, hkind, hvalue, hafter⟩ := exists_of_next?_eq_some hnext
  obtain ⟨hlongest, hof⟩ := ofChars_spec cs hc
  have hwhole : token.value.toList ++ after.rest = c :: cs := by
    rw [hvalue, hafter, Lexeme.chars_append_rest]
  have hoffset := offsetIn_eq htext
  rw [(skipBlanks_of_next? hnext).1] at htext hposition
  rw [← hwhole, ← hvalue] at hlongest
  rw [← hvalue, ← hafter, ← hkind] at hof
  exact ⟨front, after.rest, htext, hoffset, hposition, hlongest, hof⟩

/-- The cursor moves over blanks, and then over the token. -/
theorem CountsIn.offsets_of_next? (h : cursor.CountsIn text)
    (hnext : cursor.next? = some (token, after)) :
    cursor.offsetIn text ≤ cursor.skipBlanks.offsetIn text ∧
      BlankBetween text (cursor.offsetIn text) (cursor.skipBlanks.offsetIn text) ∧
      (Located.mk (cursor.skipBlanks.offsetIn text) token).stop = after.offsetIn text := by
  obtain ⟨front, htext, -, -⟩ := h
  have hblanks : cursor.rest = cursor.rest.takeWhile isBlank ++ cursor.skipBlanks.rest := by
    rw [skipBlanks, rest_afterBlanks, List.takeWhile_append_dropWhile]
  have hfront := htext
  rw [hblanks, ← List.append_assoc] at hfront
  have hafter := hfront
  rw [(skipBlanks_of_next? hnext).1, ← List.append_assoc] at hafter
  rw [Located.stop, offsetIn_eq htext, offsetIn_eq hfront, offsetIn_eq hafter]
  refine ⟨?_, ?_, List.length_append.symm⟩
  · rw [List.length_append]
    exact Nat.le_add_right _ _
  · rw [hfront, List.append_assoc]
    exact blankBetween_append front _ (List.all_eq_true.1 List.all_takeWhile)

/-- What a cursor reads lies behind what it has passed. -/
theorem CountsIn.readFrom_located (h : cursor.CountsIn text) :
    ReadFrom text (cursor.offsetIn text) (cursor.located text) := by
  fun_induction located cursor text with
  | case1 cursor hnone =>
    obtain ⟨front, htext, -, -⟩ := h
    have hblanks := blankBetween_append front [] (isBlank_of_next?_eq_none hnone)
    rw [List.append_nil, ← htext] at hblanks
    rw [offsetIn_eq htext]
    exact hblanks
  | case2 cursor token after hnext ih =>
    obtain ⟨hle, hblanks, hstop⟩ := h.offsets_of_next? hnext
    refine ⟨hle, hblanks, h.readIn hnext, ?_⟩
    rw [hstop]
    exact ih (h.reaches (reaches_of_next? hnext))

end Cursor

theorem readFrom_locatedTokens (text : String) :
    ReadFrom text.toList 0 (locatedTokens text) := by
  have hread := (Cursor.countsIn_ofText text).readFrom_located
  rw [Cursor.offsetIn_eq (List.nil_append text.toList).symm] at hread
  exact hread

/-! ## Which token a character belongs to -/

namespace Located

variable {text : List Char} {located : Located}

/-- The characters of a text from the offset of a token on. -/
theorem ReadIn.exists_behind (h : located.ReadIn text) :
    ∃ behind, (∀ i, text[located.offset + i]? = (located.token.value.toList ++ behind)[i]?) ∧
      LongestAt located.token.value.toList (located.token.value.toList ++ behind) ∧
      HasKind located.token.value.toList behind located.token.kind := by
  obtain ⟨front, behind, htext, hoffset, -, hlongest, hkind⟩ := h
  refine ⟨behind, fun i ↦ ?_, hlongest, hkind⟩
  rw [htext, hoffset, List.getElem?_append_right (Nat.le_add_right _ _), Nat.add_sub_cancel_left]

theorem ReadIn.covers_offset (h : located.ReadIn text) : located.Covers located.offset := by
  obtain ⟨front, behind, -, -, -, hlongest, -⟩ := h
  exact ⟨Nat.le_refl _, Nat.lt_add_of_pos_right (List.length_pos_iff.2 hlongest.ne_nil)⟩

theorem ReadIn.isLexeme (h : located.ReadIn text) : IsLexeme located.token.value.toList := by
  obtain ⟨front, behind, -, -, -, hlongest, -⟩ := h
  exact hlongest.isLexeme

/-- What is part of a token is in its value. -/
theorem ReadIn.mem_value (h : located.ReadIn text) {p : Nat} (hcovers : located.Covers p)
    {c : Char} (hc : text[p]? = some c) : c ∈ located.token.value.toList := by
  obtain ⟨behind, hchars, -, -⟩ := h.exists_behind
  obtain ⟨i, rfl⟩ := Nat.exists_eq_add_of_le hcovers.1
  have hlt : i < located.token.value.toList.length := Nat.lt_of_add_lt_add_left hcovers.2
  rw [hchars, List.getElem?_append_left hlt] at hc
  exact List.mem_of_getElem? hc

/-- A token that begins where another one stops is in the same line, further to the right by all
characters of the other one. -/
theorem ReadIn.position_of_offset_eq_stop {next : Located} (h : located.ReadIn text)
    (hnext : next.ReadIn text) (hstop : next.offset = located.stop) :
    next.token.position =
      located.token.position.advance located.token.value.toList.length := by
  have hunbroken : ∀ c ∈ located.token.value.toList, isLineBreak c = false :=
    fun c hc ↦ isLineBreak_eq_false_of_not_isBlank (h.isLexeme.isBlank_eq_false c hc)
  obtain ⟨front, behind, htext, hoffset, hposition, -, -⟩ := h
  obtain ⟨front', behind', htext', hoffset', hposition', -, -⟩ := hnext
  have hlength : front'.length = (front ++ located.token.value.toList).length := by
    rw [← hoffset', hstop, stop, hoffset, List.length_append]
  rw [htext, ← List.append_assoc] at htext'
  have hfront : front ++ located.token.value.toList = front' :=
    List.append_inj_left htext' hlength.symm
  rw [hposition', ← hfront, hposition, Position.behind_append_of_unbroken hunbroken]

/-- The last character of a token stands in front of the offset where it stops. -/
theorem ReadIn.getLast?_value (h : located.ReadIn text) {p : Nat} (hstop : located.stop = p + 1) :
    located.token.value.toList.getLast? = text[p]? := by
  have hlt : located.offset < p + 1 := hstop ▸ h.covers_offset.2
  obtain ⟨behind, hchars, -, -⟩ := h.exists_behind
  obtain ⟨i, rfl⟩ := Nat.exists_eq_add_of_le (Nat.le_of_lt_succ hlt)
  have hlength : located.token.value.toList.length = i + 1 :=
    Nat.add_left_cancel (hstop.trans (Nat.add_assoc _ i 1))
  rw [List.getLast?_eq_getElem?, hlength, Nat.add_sub_cancel, hchars,
    List.getElem?_append_left (by omega)]

end Located

namespace ReadFrom

variable {text : List Char} {start p : Nat} {tokens : List Located}
  {a b located : Located}

theorem readIn (h : ReadFrom text start tokens) (hmem : located ∈ tokens) :
    located.ReadIn text := by
  induction tokens generalizing start with
  | nil => cases hmem
  | cons first tokens ih =>
    obtain ⟨-, -, hfirst, hrest⟩ := h
    rcases List.mem_cons.1 hmem with rfl | hmem
    · exact hfirst
    · exact ih hrest hmem

theorem start_le (h : ReadFrom text start tokens) (hmem : located ∈ tokens) :
    start ≤ located.offset := by
  induction tokens generalizing start with
  | nil => cases hmem
  | cons first tokens ih =>
    obtain ⟨hle, -, -, hrest⟩ := h
    rcases List.mem_cons.1 hmem with rfl | hmem
    · exact hle
    · calc start ≤ first.offset := hle
        _ ≤ first.stop := Nat.le_add_right _ _
        _ ≤ located.offset := ih hrest hmem

theorem exists_of_append {before : List Located} (h : ReadFrom text start (before ++ tokens)) :
    ∃ start', ReadFrom text start' tokens := by
  induction before generalizing start with
  | nil => exact ⟨start, h⟩
  | cons first before ih => exact ih h.2.2.2

/-- A character that is not blank begins the next token, if it stands where that can begin. -/
theorem exists_next (h : ReadFrom text start tokens) {c : Char} (hc : text[start]? = some c)
    (hblank : isBlank c = false) :
    ∃ next more, tokens = next :: more ∧ next.offset = start := by
  have hnone : ∀ stop, start < stop → ¬ BlankBetween text start stop := by
    intro stop hlt hblanks
    rw [hblanks start c (Nat.le_refl _) hlt hc] at hblank
    cases hblank
  cases tokens with
  | nil => exact absurd h (hnone _ (List.getElem?_eq_some_iff.1 hc).1)
  | cons next more =>
    obtain ⟨hle, hblanks, -, -⟩ := h
    rcases Nat.eq_or_lt_of_le hle with hoffset | hlt
    · exact ⟨next, more, rfl, hoffset.symm⟩
    · exact absurd hblanks (hnone _ hlt)

/-- A character that is not blank is part of a token. -/
theorem exists_covers (h : ReadFrom text start tokens) (hstart : start ≤ p) {c : Char}
    (hc : text[p]? = some c) (hblank : isBlank c = false) :
    ∃ located ∈ tokens, located.Covers p := by
  induction tokens generalizing start with
  | nil =>
    have hlt := (List.getElem?_eq_some_iff.1 hc).1
    rw [h p c hstart hlt hc] at hblank
    cases hblank
  | cons first tokens ih =>
    obtain ⟨-, hblanks, -, hrest⟩ := h
    rcases Nat.lt_or_ge p first.offset with hlt | hoffset
    · rw [hblanks p c hstart hlt hc] at hblank
      cases hblank
    rcases Nat.lt_or_ge p first.stop with hlt | hstop
    · exact ⟨first, List.mem_cons_self, hoffset, hlt⟩
    · obtain ⟨located, hmem, hcovers⟩ := ih hrest hstop
      exact ⟨located, List.mem_cons_of_mem first hmem, hcovers⟩

/-- No character is part of two tokens. -/
theorem eq_of_covers (h : ReadFrom text start tokens) (ha : a ∈ tokens) (hb : b ∈ tokens)
    (hcovers : a.Covers p) (hcovers' : b.Covers p) : a = b := by
  induction tokens generalizing start with
  | nil => cases ha
  | cons first tokens ih =>
    obtain ⟨-, -, -, hrest⟩ := h
    rcases List.mem_cons.1 ha with rfl | ha'
    · rcases List.mem_cons.1 hb with rfl | hb'
      · rfl
      · have hbehind := (hrest.start_le hb').trans hcovers'.1
        exact absurd hcovers.2 (Nat.not_lt.2 hbehind)
    · rcases List.mem_cons.1 hb with rfl | hb'
      · have hbehind := (hrest.start_le ha').trans hcovers.1
        exact absurd hcovers'.2 (Nat.not_lt.2 hbehind)
      · exact ih hrest ha' hb'

/-- A token stops where the next one begins, if there is nothing between them. -/
theorem stop_eq_of_covers (h : ReadFrom text start tokens) (ha : a ∈ tokens) (hb : b ∈ tokens)
    (hcovers : a.Covers p) (hoffset : b.offset = p + 1) : a.stop = p + 1 := by
  obtain ⟨hle, hlt⟩ := hcovers
  have hreaches : ¬ p + 1 < a.stop := by
    intro hreach
    have hcovers' : a.Covers b.offset := by
      rw [hoffset]
      exact ⟨Nat.le_succ_of_le hle, hreach⟩
    have hsame := h.eq_of_covers ha hb hcovers' (h.readIn hb).covers_offset
    rw [hsame, hoffset] at hle
    exact Nat.not_succ_le_self p hle
  exact Nat.le_antisymm (Nat.not_lt.1 hreaches) hlt

end ReadFrom

end ShellLine
