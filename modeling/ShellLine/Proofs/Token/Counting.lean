import Mathlib.Logic.Relation
import ShellLine.Proofs.Token.Place

/-!
# Positions count the text in front

The place behind some text can be told from this text alone: the number of its line
breaks gives the line, and the length of its last line the column. A cursor moves over
one character or over one break at a time, and after each move it is at the place
behind all that it has passed. So every token begins at the place behind the text in
front of it, whatever was asked for before.

A line and a column are at most one above the number of characters passed, so a counter
that can hold one more than the size of the text never runs over.
-/

namespace ShellLine

open Text

/-! ## The place behind a text -/

/-- The place behind a text: below all its line breaks, and behind its last line. -/
def Position.behind (front : List Char) : Position :=
  ⟨lineBreaks front + 1, (lastLine front).length + 1⟩

namespace Position

theorem advance_advance (p : Position) (m n : Nat) :
    (p.advance m).advance n = p.advance (m + n) := by
  rw [advance, advance, advance, Nat.add_assoc]

theorem line_behind_le (front : List Char) : (behind front).line ≤ front.length + 1 :=
  Nat.succ_le_succ (lineBreaks_le_length front)

theorem column_behind_le (front : List Char) : (behind front).column ≤ front.length + 1 :=
  Nat.succ_le_succ (length_lastLine_le front)

theorem behind_concat_of_not_isLineBreak {c : Char} (h : isLineBreak c = false)
    (front : List Char) : behind (front ++ [c]) = (behind front).advance 1 := by
  have hunsplit : ¬ SplitsBreak front [c] := by
    rintro ⟨-, hfeed⟩
    cases hfeed
    cases h
  have hnone : lineBreaks ([c] ++ []) = 0 :=
    lineBreaks_append_of_unbroken (List.forall_mem_singleton.2 h) []
  rw [List.append_nil] at hnone
  rw [behind, lastLine_concat_of_not_isLineBreak h, List.length_append,
    lineBreaks_append hunsplit, hnone]
  rfl

theorem behind_concat_of_isLineBreak {c : Char} (h : isLineBreak c = true) {front : List Char}
    (hunsplit : ¬ SplitsBreak front [c]) : behind (front ++ [c]) = (behind front).nextLine := by
  have hone : lineBreaks [c] = 1 := by
    rw [lineBreaks.eq_3 _ _ (by rintro more - ⟨⟩), if_pos h]
    rfl
  rw [behind, lastLine_concat_of_isLineBreak h, lineBreaks_append hunsplit, hone]
  rfl

theorem behind_append_pair (front : List Char) :
    behind (front ++ ['\r', '\n']) = (behind front).nextLine := by
  have hunsplit : ¬ SplitsBreak front ['\r', '\n'] := fun h ↦ absurd h.2 (by decide)
  have hline : lastLine (front ++ ['\r'] ++ ['\n']) = [] :=
    lastLine_concat_of_isLineBreak (by decide) (front ++ ['\r'])
  rw [List.append_assoc, List.singleton_append] at hline
  rw [behind, hline, lineBreaks_append hunsplit]
  rfl

end Position

/-! ## Moves of a cursor -/

/-- A move over one character, or over one line break with its one or two characters. -/
inductive Cursor.Moves : Cursor → Cursor → Prop
  | character {c : Char} {rest : List Char} {position : Position} (h : isLineBreak c = false) :
      Moves ⟨c :: rest, position⟩ ⟨rest, position.advance 1⟩
  | lineBreak {c : Char} {rest : List Char} {position : Position} (h : isLineBreak c = true)
      (halone : ∀ more, c = '\r' → rest = '\n' :: more → False) :
      Moves ⟨c :: rest, position⟩ ⟨rest, position.nextLine⟩
  | pair {rest : List Char} {position : Position} :
      Moves ⟨'\r' :: '\n' :: rest, position⟩ ⟨rest, position.nextLine⟩

namespace Cursor

/-- Any number of moves. -/
def Reaches : Cursor → Cursor → Prop := Relation.ReflTransGen Moves

/-- A cursor is at the place behind the text that it has passed, and not inside a break. -/
def CountsIn (cursor : Cursor) (text : List Char) : Prop :=
  ∃ front, text = front ++ cursor.rest ∧ cursor.position = .behind front ∧
    ¬ SplitsBreak front cursor.rest

variable {cursor other after : Cursor} {token : Token} {text : List Char}

theorem countsIn_ofText (text : String) : (ofText text).CountsIn text.toList :=
  ⟨[], rfl, rfl, fun h ↦ absurd h.1 (by decide)⟩

theorem CountsIn.moves (h : cursor.CountsIn text) (hmoves : Moves cursor other) :
    other.CountsIn text := by
  obtain ⟨front, htext, hposition, hunsplit⟩ := h
  -- No move ends between a carriage return and its line feed.
  cases hmoves with
  | @character c rest position hc =>
    refine ⟨front ++ [c], ?_, ?_, ?_⟩
    · rw [htext, List.append_assoc]
      rfl
    · rw [Position.behind_concat_of_not_isLineBreak hc, ← hposition]
    · rintro ⟨hlast, -⟩
      rw [List.getLast?_concat] at hlast
      cases hlast
      cases hc
  | @lineBreak c rest position hc halone =>
    refine ⟨front ++ [c], ?_, ?_, ?_⟩
    · rw [htext, List.append_assoc]
      rfl
    · have hsingle : ¬ SplitsBreak front [c] := fun h ↦ hunsplit ⟨h.1, h.2⟩
      rw [Position.behind_concat_of_isLineBreak hc hsingle, ← hposition]
    · rintro ⟨hlast, hfeed⟩
      rw [List.getLast?_concat] at hlast
      cases rest with
      | nil => cases hfeed
      | cons d rest =>
        obtain rfl := Option.some.inj hfeed
        exact halone rest (Option.some.inj hlast) rfl
  | @pair rest position =>
    refine ⟨front ++ ['\r', '\n'], ?_, ?_, ?_⟩
    · rw [htext, List.append_assoc]
      rfl
    · rw [Position.behind_append_pair, ← hposition]
    · rintro ⟨hlast, -⟩
      rw [List.getLast?_append] at hlast
      cases hlast

theorem CountsIn.reaches (h : cursor.CountsIn text) (hreaches : cursor.Reaches other) :
    other.CountsIn text := by
  induction hreaches with
  | refl => exact h
  | tail _ hmoves ih => exact ih.moves hmoves

/-! ## All that a cursor does are moves -/

theorem reaches_afterBlanks (text : List Char) (position : Position) :
    Reaches ⟨text, position⟩ (afterBlanks text position) := by
  fun_induction afterBlanks text position with
  | case1 position => exact .refl
  | case2 rest position ih => exact .head .pair ih
  | case3 c rest position halone hbreak ih => exact .head (.lineBreak hbreak halone) ih
  | case4 c rest position _ hbreak _ ih =>
    exact .head (.character (Bool.eq_false_iff.2 hbreak)) ih
  | case5 c rest position => exact .refl

theorem reaches_of_unbroken {passed : List Char} (h : ∀ c ∈ passed, isLineBreak c = false)
    (rest : List Char) (position : Position) :
    Reaches ⟨passed ++ rest, position⟩ ⟨rest, position.advance passed.length⟩ := by
  induction passed generalizing position with
  | nil => exact .refl
  | cons c passed ih =>
    obtain ⟨hc, hpassed⟩ := List.forall_mem_cons.1 h
    have hothers := ih hpassed (position.advance 1)
    rw [Position.advance_advance, Nat.add_comm, ← List.length_cons] at hothers
    exact .head (.character hc) hothers

theorem reaches_skipBlanks (cursor : Cursor) : cursor.Reaches cursor.skipBlanks :=
  reaches_afterBlanks cursor.rest cursor.position

theorem reaches_of_next? (h : cursor.next? = some (token, after)) :
    cursor.Reaches after := by
  obtain ⟨hskip, hafter⟩ := skipBlanks_of_next? h
  have hpasses := reaches_of_unbroken (not_isLineBreak_of_next? h) after.rest token.position
  have hskips := cursor.reaches_skipBlanks
  rw [hskip] at hskips
  rw [← hafter] at hpasses
  exact hskips.trans hpasses

theorem reaches_drain (cursor : Cursor) : cursor.Reaches cursor.drain.2 := by
  fun_induction drain cursor with
  | case1 cursor hnone => exact cursor.reaches_skipBlanks
  | case2 cursor token after hnext tokens stop hdrain ih =>
    rw [hdrain] at ih
    exact (reaches_of_next? hnext).trans ih

theorem reaches_nextToken (cursor : Cursor) : cursor.Reaches cursor.nextToken.2 := by
  unfold nextToken
  split
  · next step hnext => exact reaches_of_next? hnext
  · exact cursor.reaches_skipBlanks

theorem reaches_pull (cursor : Cursor) (asked : Pull) : cursor.Reaches (cursor.pull asked).2 := by
  cases asked with
  | token => exact cursor.reaches_nextToken
  | next =>
    cases hnext : cursor.next? with
    | some step =>
      simp only [pull, hnext]
      exact reaches_of_next? hnext
    | none =>
      simp only [pull, hnext]
      exact cursor.reaches_skipBlanks
  | count => exact cursor.reaches_drain
  | all => exact cursor.reaches_drain

/-- The cursor that is left by a run of pulls. -/
def afterPulls (cursor : Cursor) (asked : List Pull) : Cursor :=
  asked.foldl (fun cursor asked ↦ (cursor.pull asked).2) cursor

theorem reaches_afterPulls (cursor : Cursor) (asked : List Pull) :
    cursor.Reaches (cursor.afterPulls asked) := by
  induction asked generalizing cursor with
  | nil => exact .refl
  | cons first asked ih => exact (cursor.reaches_pull first).trans (ih _)

/-- The next token begins at the place behind the text in front of it. -/
theorem CountsIn.exists_nextToken (h : cursor.CountsIn text) :
    ∃ front token after, cursor.nextToken = (token, after) ∧
      text = front ++ (token.value.toList ++ after.rest) ∧ token.position = .behind front ∧
      (token.kind = .eof → front = text) := by
  obtain ⟨front, htext, hposition, -⟩ := h.reaches cursor.reaches_skipBlanks
  cases hnext : cursor.next? with
  | some step =>
    obtain ⟨token, after⟩ := step
    rw [(skipBlanks_of_next? hnext).1] at htext hposition
    refine ⟨front, token, after, ?_, htext, hposition, ?_⟩
    · rw [nextToken, hnext]
    · exact fun heof ↦ absurd heof (kind_ne_eof_of_next? hnext)
  | none =>
    have hrest := skipBlanks_rest_of_next?_eq_none hnext
    refine ⟨front, cursor.skipBlanks.endToken, cursor.skipBlanks, ?_, htext, hposition, ?_⟩
    · rw [nextToken, hnext]
    · rw [htext, hrest, List.append_nil]
      exact fun _ ↦ rfl

/-- No counter is more than one above the number of characters that have been passed. -/
theorem CountsIn.counters_le (h : cursor.CountsIn text) :
    cursor.position.line ≤ text.length + 1 ∧ cursor.position.column ≤ text.length + 1 := by
  obtain ⟨front, htext, hposition, -⟩ := h
  have hlength : front.length ≤ text.length := by
    rw [htext, List.length_append]
    exact Nat.le_add_right _ _
  rw [hposition]
  exact ⟨(Position.line_behind_le front).trans (Nat.succ_le_succ hlength),
    (Position.column_behind_le front).trans (Nat.succ_le_succ hlength)⟩

end Cursor

/-! ## Counters of limited size -/

/-- Every character takes at least one byte. -/
theorem length_toList_le_utf8ByteSize (text : String) :
    text.toList.length ≤ text.utf8ByteSize := by
  have hsize : text.utf8ByteSize = (text.toList.flatMap String.utf8EncodeChar).length := by
    rw [← String.size_toByteArray, ← String.utf8Encode_toList, List.utf8Encode,
      List.size_toByteArray]
  rw [hsize]
  induction text.toList with
  | nil => exact Nat.le_refl 0
  | cons c chars ih =>
    have hbytes := List.length_pos_iff.2 (String.utf8EncodeChar_ne_nil (c := c))
    rw [List.flatMap_cons, List.length_append, List.length_cons]
    omega

/-- The next token, whatever was asked for before, begins at the place that the text in front of it
gives. No line and no column is more than one above the number of characters in front. So if the
text takes fewer bytes than some limit, no counter goes over the limit at any place on the way. -/
theorem positions_count_text_in_front (text : String) (asked : List Pull) :
    ∃ front token after,
      ((Cursor.ofText text).afterPulls asked).nextToken = (token, after) ∧
      text.toList = front ++ (token.value.toList ++ after.rest) ∧
      token.position = ⟨lineBreaks front + 1, (lastLine front).length + 1⟩ ∧
      (1 ≤ token.position.line ∧ token.position.line ≤ front.length + 1) ∧
      (1 ≤ token.position.column ∧ token.position.column ≤ front.length + 1) ∧
      (token.kind = .eof → front = text.toList) ∧
      (Cursor.ofText text).Reaches after ∧
      ∀ limit, text.utf8ByteSize < limit →
        ∀ passed, (Cursor.ofText text).Reaches passed →
          passed.position.line ≤ limit ∧ passed.position.column ≤ limit := by
  have hstart := Cursor.countsIn_ofText text
  have hreaches := (Cursor.ofText text).reaches_afterPulls asked
  obtain ⟨front, token, after, hnext, htext, hposition, heof⟩ :=
    (hstart.reaches hreaches).exists_nextToken
  have hafter := ((Cursor.ofText text).afterPulls asked).reaches_nextToken
  rw [hnext] at hafter
  refine ⟨front, token, after, hnext, htext, hposition, ?_, ?_, heof, hreaches.trans hafter,
    fun limit hlimit passed hpassed ↦ ?_⟩
  · rw [hposition]
    exact ⟨Nat.succ_pos _, Position.line_behind_le front⟩
  · rw [hposition]
    exact ⟨Nat.succ_pos _, Position.column_behind_le front⟩
  · obtain ⟨hline, hcolumn⟩ := (hstart.reaches hpassed).counters_le
    have hsize := length_toList_le_utf8ByteSize text
    omega

theorem positions_count_text_in_front_of_end :
    ∃ front token after,
      ((Cursor.ofText "é\r\n\r x").afterPulls [.next, .count]).nextToken = (token, after) ∧
      token = ⟨.eof, "", ⟨3, 3⟩⟩ ∧ front = "é\r\n\r x".toList ∧
      token.position = ⟨lineBreaks front + 1, (lastLine front).length + 1⟩ ∧
      "é\r\n\r x".utf8ByteSize < 8 ∧ after.position.line ≤ 8 ∧ after.position.column ≤ 8 := by
  have hend : ((Cursor.ofText "é\r\n\r x").afterPulls [.next, .count]).nextToken =
      (⟨.eof, "", ⟨3, 3⟩⟩, ⟨[], ⟨3, 3⟩⟩) := by
    decide +kernel
  have hsize : "é\r\n\r x".utf8ByteSize < 8 := by decide
  obtain ⟨front, token, after, hnext, -, hposition, -, -, heof, hreaches, hcounters⟩ :=
    positions_count_text_in_front "é\r\n\r x" [.next, .count]
  obtain ⟨hline, hcolumn⟩ := hcounters 8 hsize after hreaches
  obtain ⟨rfl, rfl⟩ := Prod.mk.inj (hnext.symm.trans hend)
  exact ⟨front, _, _, hnext, rfl, heof rfl, hposition, hsize, hline, hcolumn⟩

end ShellLine
