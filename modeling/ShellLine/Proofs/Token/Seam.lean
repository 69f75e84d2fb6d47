import ShellLine.Proofs.Token.Layout
import ShellLine.Proofs.Token.Place

/-!
# Texts that meet in a blank

Where two texts meet in a blank, no lexeme reaches from one into the other. The tokens
of both are read one after the other, and those of the first text are where they were.
In the second text the cursor arrives later: if it begins a line there, all places are
further down by the lines above, and the columns are as before.

A carriage return in front of the seam and a line feed behind it are one break. Such a
seam is left out, for its two halves would be counted twice.
-/

namespace ShellLine

open Text Lexicon

/-- Two texts with a blank where they meet. -/
def BlankSeam (front behind : List Char) : Prop :=
  (∀ c ∈ front.getLast?, isBlank c = true) ∨ ∀ c ∈ behind.head?, isBlank c = true

/-! ## Lexemes in front of a seam -/

namespace Lexicon

theorem LongestAt.append {lexeme text behind : List Char} (h : LongestAt lexeme text)
    (hseam : BlankSeam text behind) : LongestAt lexeme (text ++ behind) := by
  refine ⟨h.isLexeme, h.front.trans (List.prefix_append text behind), ?_⟩
  intro other hother hfront
  rcases Nat.lt_or_ge text.length other.length with hlt | hle
  · obtain ⟨more, rfl⟩ := List.prefix_of_prefix_length_le (List.prefix_append text behind)
      hfront (Nat.le_of_lt hlt)
    -- A lexeme that is longer than the text would hold the blank of the seam.
    rcases hseam with hlast | hhead
    · have hnonempty : text ≠ [] := fun hnil ↦ h.ne_nil (List.prefix_nil.1 (hnil ▸ h.front))
      have hmem := List.getLast_mem hnonempty
      have hblank := hlast _ (List.getLast?_eq_some_getLast hnonempty)
      rw [hother.isBlank_eq_false _ (List.mem_append_left more hmem)] at hblank
      cases hblank
    · rw [List.prefix_append_right_inj] at hfront
      cases more with
      | nil => simp at hlt
      | cons c more =>
        obtain ⟨last, rfl⟩ := hfront
        have hblank := hhead c rfl
        rw [hother.isBlank_eq_false c (by simp)] at hblank
        cases hblank
  · exact h.longest other hother
      (List.prefix_of_prefix_length_le hfront (List.prefix_append text behind) hle)

theorem HasKind.append {lexeme rest behind : List Char} {kind : Token.Kind}
    (h : HasKind lexeme rest kind) (hseam : BlankSeam (lexeme ++ rest) behind) :
    HasKind lexeme (rest ++ behind) kind := by
  cases rest with
  | cons d rest => cases kind <;> exact h
  | nil =>
    have hlexeme := h.isLexeme
    have hblank : ∀ c ∈ behind.head?, isBlank c = true := by
      rcases hseam with hlast | hhead
      · rw [List.append_nil, List.getLast?_eq_some_getLast hlexeme.ne_nil] at hlast
        have hnot := hlexeme.isBlank_eq_false _ (List.getLast_mem hlexeme.ne_nil)
        rw [hlast _ rfl] at hnot
        cases hnot
      · exact hhead
    refine h.of_blank_behind ?_ hblank
    rintro rfl
    exact absurd h.2.2 (by decide)

/-- What is read in front of a seam does not depend on the text behind it. -/
theorem ofChars_append {c : Char} {cs behind : List Char} (hc : isBlank c = false)
    (hseam : BlankSeam (c :: cs) behind) :
    Lexeme.ofChars c (cs ++ behind) =
      ⟨(Lexeme.ofChars c cs).kind, (Lexeme.ofChars c cs).chars,
        (Lexeme.ofChars c cs).rest ++ behind⟩ := by
  obtain ⟨hlongest, hkind⟩ := ofChars_spec cs hc
  obtain ⟨hlongest', hkind'⟩ := ofChars_spec (cs ++ behind) hc
  have htext := Lexeme.chars_append_rest c cs
  have htext' := Lexeme.chars_append_rest c (cs ++ behind)
  have hchars := hlongest'.unique (hlongest.append hseam)
  rw [hchars, ← List.cons_append, ← htext, List.append_assoc, List.append_cancel_left_eq] at htext'
  rw [← htext] at hseam
  rw [htext', hchars] at hkind'
  have hsame := (hkind.append hseam).unique hlongest.isLexeme hkind'
  rw [hsame, ← hchars, ← htext']

end Lexicon

/-! ## Cursors in front of a seam -/

theorem BlankSeam.of_suffix {front rest behind : List Char} (h : BlankSeam front behind)
    (hrest : rest <:+ front) : BlankSeam rest behind :=
  h.imp_left fun hlast c hc ↦ hlast c (mem_getLast?_of_suffix hrest hc)

/-- The same cursor with more text ahead. -/
def Cursor.followedBy (cursor : Cursor) (more : List Char) : Cursor :=
  ⟨cursor.rest ++ more, cursor.position⟩

namespace Cursor

variable {cursor after : Cursor} {token : Token} {behind : List Char}

theorem suffix_skipBlanks (cursor : Cursor) : cursor.skipBlanks.rest <:+ cursor.rest := by
  rw [skipBlanks, rest_afterBlanks]
  exact List.dropWhile_suffix isBlank

theorem suffix_of_next? (h : cursor.next? = some (token, after)) : after.rest <:+ cursor.rest := by
  have hsuffix := cursor.suffix_skipBlanks
  rw [(skipBlanks_of_next? h).1] at hsuffix
  exact (List.suffix_append _ _).trans hsuffix

theorem afterBlanks_of_not_isBlank {c : Char} (h : isBlank c = false) (cs : List Char)
    (position : Position) : afterBlanks (c :: cs) position = ⟨c :: cs, position⟩ := by
  have hbreak := isLineBreak_eq_false_of_not_isBlank h
  have halone : ∀ more, c = '\r' → cs = '\n' :: more → False := by
    rintro more rfl -
    cases hbreak
  rw [afterBlanks.eq_3 _ _ _ halone, hbreak, h]
  rfl

/-- Blanks may be skipped in two steps. -/
theorem afterBlanks_append {text : List Char} {position : Position}
    (hbreak : (afterBlanks text position).rest = [] → ¬ SplitsBreak text behind) :
    afterBlanks (text ++ behind) position =
      afterBlanks ((afterBlanks text position).rest ++ behind)
        (afterBlanks text position).position := by
  fun_induction afterBlanks text position with
  | case1 position => rfl
  | case2 rest position ih =>
    exact ih fun hnil ↦ not_splitsBreak_of_suffix (hbreak hnil) ⟨['\r', '\n'], rfl⟩
  | case3 c rest position halone hc ih =>
    have hfirst : rest = [] → ¬ SplitsBreak [c] behind := by
      rintro rfl
      exact hbreak rfl
    rw [List.cons_append, afterBlanks.eq_3 _ _ _ (alone_append hfirst halone), if_pos hc]
    exact ih fun hnil ↦ not_splitsBreak_of_suffix (hbreak hnil) (List.suffix_cons c rest)
  | case4 c rest position halone hc hblank ih =>
    have hfirst : rest = [] → ¬ SplitsBreak [c] behind := by
      rintro rfl
      exact hbreak rfl
    rw [List.cons_append, afterBlanks.eq_3 _ _ _ (alone_append hfirst halone), if_neg hc,
      if_pos hblank]
    exact ih fun hnil ↦ not_splitsBreak_of_suffix (hbreak hnil) (List.suffix_cons c rest)
  | case5 c rest position => rfl

theorem skipBlanks_followedBy
    (hbreak : cursor.skipBlanks.rest = [] → ¬ SplitsBreak cursor.rest behind) :
    (cursor.followedBy behind).skipBlanks =
      (cursor.skipBlanks.followedBy behind).skipBlanks :=
  afterBlanks_append hbreak

/-- What a cursor reads begins behind the blanks. -/
theorem next?_congr {other : Cursor} (h : cursor.skipBlanks = other.skipBlanks) :
    cursor.next? = other.next? := by
  rw [next?, next?, h]

theorem drain_congr {other : Cursor} (h : cursor.skipBlanks = other.skipBlanks) :
    cursor.drain = other.drain := by
  cases hnext : cursor.next? with
  | none =>
    rw [drain_of_next?_eq_none hnext, h, drain_of_next?_eq_none ((next?_congr h).symm.trans hnext)]
  | some step =>
    rw [drain_of_next?_eq_some hnext,
      drain_of_next?_eq_some ((next?_congr h).symm.trans hnext)]

theorem next?_of_skipBlanks {c : Char} {cs : List Char} {position : Position}
    (h : cursor.skipBlanks = ⟨c :: cs, position⟩) :
    cursor.next? = some (⟨(Lexeme.ofChars c cs).kind, String.ofList (Lexeme.ofChars c cs).chars,
      position⟩, ⟨(Lexeme.ofChars c cs).rest,
        position.advance (Lexeme.ofChars c cs).chars.length⟩) := by
  rw [next?, h]

theorem exists_skipBlanks_of_next? (h : cursor.next? = some (token, after)) :
    ∃ c cs, isBlank c = false ∧ cursor.skipBlanks = ⟨c :: cs, token.position⟩ := by
  obtain ⟨-, c, cs, -, -, hc, -, hvalue, hafter⟩ := exists_of_next?_eq_some h
  refine ⟨c, cs, hc, ?_⟩
  rw [(skipBlanks_of_next? h).1, hvalue, hafter, Lexeme.chars_append_rest]

/-- A token in front of a seam is read as if nothing came behind it. -/
theorem next?_followedBy (hseam : BlankSeam cursor.rest behind)
    (h : cursor.next? = some (token, after)) :
    (cursor.followedBy behind).next? = some (token, after.followedBy behind) := by
  obtain ⟨c, cs, hc, hstart⟩ := exists_skipBlanks_of_next? h
  have hskip : cursor.skipBlanks.rest = [] → ¬ SplitsBreak cursor.rest behind := by
    rw [hstart]
    exact nofun
  have hmore : (cursor.followedBy behind).skipBlanks =
      ⟨c :: (cs ++ behind), token.position⟩ := by
    rw [skipBlanks_followedBy hskip, hstart]
    exact afterBlanks_of_not_isBlank hc (cs ++ behind) token.position
  have hsuffix := cursor.suffix_skipBlanks
  rw [hstart] at hsuffix
  have hlexeme := ofChars_append hc (hseam.of_suffix hsuffix)
  have hread := next?_of_skipBlanks hstart
  generalize token.position = position at hmore hread
  rw [h] at hread
  cases hread
  rw [next?_of_skipBlanks hmore, hlexeme]
  rfl

/-- What is ahead of a cursor is read up to the seam, and then what is behind it. -/
theorem drain_followedBy (hseam : BlankSeam cursor.rest behind)
    (hbreak : ¬ SplitsBreak cursor.rest behind) :
    (cursor.followedBy behind).drain =
      (cursor.drain.1 ++ (cursor.drain.2.followedBy behind).drain.1,
        (cursor.drain.2.followedBy behind).drain.2) := by
  fun_induction drain cursor with
  | case1 cursor hnone =>
    rw [List.nil_append]
    exact drain_congr (skipBlanks_followedBy fun _ ↦ hbreak)
  | case2 cursor token after hnext tokens stop hdrain ih =>
    have hsuffix := suffix_of_next? hnext
    have hafter := ih (hseam.of_suffix hsuffix) (not_splitsBreak_of_suffix hbreak hsuffix)
    rw [hdrain] at hafter
    rw [drain_of_next?_eq_some (next?_followedBy hseam hnext), hafter]
    rfl

end Cursor

/-! ## Further down -/

/-- The same place with more lines above. -/
def Position.below (p : Position) (lines : Nat) : Position :=
  ⟨p.line + lines, p.column⟩

def Token.below (token : Token) (lines : Nat) : Token :=
  ⟨token.kind, token.value, token.position.below lines⟩

@[simp] theorem Token.terminal_below (token : Token) (lines : Nat) :
    (token.below lines).terminal = token.terminal := rfl

theorem Position.nextLine_below (p : Position) (lines : Nat) :
    (p.below lines).nextLine = p.nextLine.below lines := by
  rw [nextLine, below, Nat.add_right_comm]
  rfl

namespace Cursor

def below (cursor : Cursor) (lines : Nat) : Cursor :=
  ⟨cursor.rest, cursor.position.below lines⟩

variable {cursor after : Cursor} {token : Token}

theorem afterBlanks_below (text : List Char) (position : Position) (lines : Nat) :
    afterBlanks text (position.below lines) = (afterBlanks text position).below lines := by
  fun_induction afterBlanks text position with
  | case1 position => rfl
  | case2 rest position ih =>
    rw [afterBlanks, Position.nextLine_below, ih]
  | case3 c rest position halone hc ih =>
    rw [afterBlanks.eq_3 _ _ _ halone, if_pos hc, Position.nextLine_below, ih]
  | case4 c rest position halone hc hblank ih =>
    rw [afterBlanks.eq_3 _ _ _ halone, if_neg hc, if_pos hblank]
    exact ih
  | case5 c rest position halone hc hblank =>
    rw [afterBlanks.eq_3 _ _ _ halone, if_neg hc, if_neg hblank]
    rfl

theorem skipBlanks_below (cursor : Cursor) (lines : Nat) :
    (cursor.below lines).skipBlanks = cursor.skipBlanks.below lines :=
  afterBlanks_below cursor.rest cursor.position lines

theorem next?_below (cursor : Cursor) (lines : Nat) :
    (cursor.below lines).next? =
      cursor.next?.map fun step ↦ (step.1.below lines, step.2.below lines) := by
  rw [next?, next?, skipBlanks_below]
  obtain ⟨rest, position⟩ := cursor.skipBlanks
  cases rest with
  | nil => rfl
  | cons c cs => rfl

/-- Lines above make no difference but to the places. -/
theorem drain_below (cursor : Cursor) (lines : Nat) :
    (cursor.below lines).drain =
      (cursor.drain.1.map (Token.below · lines), cursor.drain.2.below lines) := by
  fun_induction drain cursor with
  | case1 cursor hnone =>
    have hnext := cursor.next?_below lines
    rw [hnone, Option.map_none] at hnext
    rw [drain_of_next?_eq_none hnext, skipBlanks_below]
    rfl
  | case2 cursor token after hnext tokens stop hdrain ih =>
    have hdown := cursor.next?_below lines
    rw [hnext, Option.map_some] at hdown
    rw [hdrain] at ih
    rw [drain_of_next?_eq_some hdown, ih]
    rfl

/-! ## The line at which a cursor stops -/

theorem line_afterBlanks (text : List Char) (position : Position) :
    (afterBlanks text position).position.line + lineBreaks (afterBlanks text position).rest =
      position.line + lineBreaks text := by
  fun_induction afterBlanks text position with
  | case1 position => rfl
  | case2 rest position ih => exact ih.trans (Nat.add_right_comm position.line 1 _)
  | case3 c rest position halone hc ih =>
    rw [ih, lineBreaks.eq_3 _ _ halone, if_pos hc]
    exact Nat.add_right_comm position.line 1 _
  | case4 c rest position halone hc hblank ih =>
    rw [ih, lineBreaks.eq_3 _ _ halone, if_neg hc]
    rfl
  | case5 c rest position => rfl

theorem line_of_next? (h : cursor.next? = some (token, after)) :
    after.position.line + lineBreaks after.rest =
      cursor.position.line + lineBreaks cursor.rest := by
  obtain ⟨hskip, hafter⟩ := skipBlanks_of_next? h
  have hline := line_afterBlanks cursor.rest cursor.position
  rw [← skipBlanks, hskip, lineBreaks_append_of_unbroken (not_isLineBreak_of_next? h)] at hline
  rw [hafter, ← hline]
  rfl

/-- The cursor at the end of a text has passed all line breaks of it. -/
theorem line_drain (cursor : Cursor) :
    cursor.drain.2.position.line = cursor.position.line + lineBreaks cursor.rest := by
  fun_induction drain cursor with
  | case1 cursor hnone =>
    have hline := line_afterBlanks cursor.rest cursor.position
    rw [← skipBlanks, skipBlanks_rest_of_next?_eq_none hnone] at hline
    exact hline
  | case2 cursor token after hnext tokens stop hdrain ih =>
    rw [hdrain] at ih
    exact ih.trans (line_of_next? hnext)

end Cursor

end ShellLine
