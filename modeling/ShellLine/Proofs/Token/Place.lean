import ShellLine.Proofs.Text.Breaks
import ShellLine.Proofs.Token.Segmentation
import ShellLine.Token.Pull

/-!
# Positions lead to what stands there

The cursor counts line breaks while it passes over blanks, and `sourceLine` counts
them while it looks for one line. Both count alike: where the cursor stands, its
line, without the characters in front of its column, is the rest of that line. So
the text shows each token at its position, in whatever way the token was asked for.

That a position is also fixed by the text in front of it is not treated here.
-/

namespace ShellLine

open Text Lexicon

/-! ## Places in a text -/

/-- What stands at a place of a text: the text behind the breaks of the lines above, and behind
the characters that are in front in the same line. -/
def StandsAt (text : List Char) (position : Position) (rest : List Char) : Prop :=
  ∃ breaks front, position = ⟨breaks + 1, front.length + 1⟩ ∧
    behindBreaks? breaks text = some (front ++ rest) ∧ ∀ c ∈ front, isLineBreak c = false

namespace StandsAt

variable {text rest : List Char} {position : Position}

theorem start (text : List Char) : StandsAt text .start text :=
  ⟨0, [], rfl, rfl, nofun⟩

/-- Characters that break no line move a place along its line. -/
theorem advance {passed : List Char} (h : StandsAt text position (passed ++ rest))
    (hpassed : ∀ c ∈ passed, isLineBreak c = false) :
    StandsAt text (position.advance passed.length) rest := by
  obtain ⟨breaks, front, rfl, hbehind, hfront⟩ := h
  refine ⟨breaks, front ++ passed, ?_, ?_, List.forall_mem_append.2 ⟨hfront, hpassed⟩⟩
  · rw [Position.advance, List.length_append, Nat.add_right_comm]
  · rw [hbehind, List.append_assoc]

/-- Behind a break the next line begins. -/
theorem nextLine {more : List Char} (h : StandsAt text position rest)
    (hbreak : afterLine? rest = some more) : StandsAt text position.nextLine more := by
  obtain ⟨breaks, front, rfl, hbehind, hfront⟩ := h
  refine ⟨breaks + 1, [], rfl, ?_, nofun⟩
  rw [behindBreaks?_succ, hbehind, Option.bind_some, afterLine?_of_unbroken hfront, hbreak]
  rfl

/-- The line with the number of a place, split where the place is. -/
theorem exists_sourceLine {text : String} (h : StandsAt text.toList position rest) :
    ∃ front, position.column = front.length + 1 ∧
      (sourceLine text position.line).toList = front ++ firstLine rest := by
  obtain ⟨breaks, front, rfl, hbehind, hfront⟩ := h
  refine ⟨front, rfl, ?_⟩
  rw [toList_sourceLine, Nat.add_sub_cancel, lineAfter_of_behindBreaks? hbehind,
    firstLine_of_unbroken hfront]

end StandsAt

/-! ## Cursors know their place -/

namespace Cursor

/-- What is ahead of a cursor stands at its position. -/
def Within (cursor : Cursor) (text : List Char) : Prop :=
  StandsAt text cursor.position cursor.rest

variable {text : String} {cursor after : Cursor} {token : Token}

theorem within_ofText (text : String) : (ofText text).Within text.toList :=
  StandsAt.start text.toList

/-- Each break that is passed over begins the line that `sourceLine` begins there. -/
theorem within_afterBlanks {text rest : List Char} {position : Position}
    (h : StandsAt text position rest) : (afterBlanks rest position).Within text := by
  fun_induction afterBlanks rest position with
  | case1 position => exact h
  | case2 rest position ih => exact ih (h.nextLine rfl)
  | case3 c rest position halone hbreak ih =>
    exact ih (h.nextLine (afterLine?_of_isLineBreak hbreak halone))
  | case4 c rest position _ hbreak _ ih =>
    have hpassed : ∀ d ∈ [c], isLineBreak d = false :=
      List.forall_mem_singleton.2 (Bool.eq_false_iff.2 hbreak)
    have hstands : StandsAt text position ([c] ++ rest) := h
    exact ih (hstands.advance hpassed)
  | case5 c rest position => exact h

theorem Within.skipBlanks (h : cursor.Within text.toList) :
    cursor.skipBlanks.Within text.toList :=
  within_afterBlanks h

/-- Behind the blanks the text goes on with the next token. -/
theorem skipBlanks_of_next? (h : cursor.next? = some (token, after)) :
    cursor.skipBlanks = ⟨token.value.toList ++ after.rest, token.position⟩ ∧
      after.position = token.position.advance token.value.toList.length := by
  unfold next? at h
  split at h
  · cases h
  · next c cs position hstart =>
    cases h
    rw [hstart, String.toList_ofList, Lexeme.chars_append_rest]
    exact ⟨rfl, rfl⟩

/-- No line breaks in a token. -/
theorem not_isLineBreak_of_next? (h : cursor.next? = some (token, after)) :
    ∀ c ∈ token.value.toList, isLineBreak c = false := by
  obtain ⟨blanks, c, cs, -, -, hc, -, hvalue, -⟩ := exists_of_next?_eq_some h
  have hlexeme := (ofChars_spec cs hc).1.isLexeme
  rw [hvalue]
  exact fun d hd ↦ isLineBreak_eq_false_of_not_isBlank (hlexeme.isBlank_eq_false d hd)

/-- What is read is not the end of the input. -/
theorem kind_ne_eof_of_next? (h : cursor.next? = some (token, after)) : token.kind ≠ .eof := by
  obtain ⟨blanks, c, cs, -, -, hc, hkind, -, -⟩ := exists_of_next?_eq_some h
  have hof := (ofChars_spec cs hc).2
  rw [← hkind] at hof
  intro heof
  rw [heof] at hof
  exact hof

theorem skipBlanks_rest_of_next?_eq_none (h : cursor.next? = none) :
    cursor.skipBlanks.rest = [] := by
  unfold next? at h
  split at h
  · next hstop => rw [hstop]
  · cases h

end Cursor

/-! ## The line of a token shows it -/

/-- A token is found in a line behind the characters in front of its column, and the end of the
input behind all characters. -/
structure Token.StandsIn (token : Token) (line : String) (column : Nat) : Prop where
  not_isLineBreak : ∀ c ∈ line.toList, isLineBreak c = false
  column_pos : 0 < column
  column_le : column - 1 ≤ line.toList.length
  value_front : token.value.toList <+: line.toList.drop (column - 1)
  nothing_behind_eof : token.kind = .eof → line.toList.drop (column - 1) = []

/-- The line of the text to which a token's position points shows the token. -/
def Token.ShownIn (token : Token) (text : String) : Prop :=
  token.StandsIn (sourceLine text token.position.line) token.position.column

theorem StandsAt.shownIn {text : String} {token : Token} {behind : List Char}
    (h : StandsAt text.toList token.position (token.value.toList ++ behind))
    (hunbroken : ∀ c ∈ token.value.toList, isLineBreak c = false)
    (heof : token.kind = .eof → token.value.toList ++ behind = []) : token.ShownIn text := by
  obtain ⟨front, hcolumn, hline⟩ := h.exists_sourceLine
  have hdrop : (sourceLine text token.position.line).toList.drop (token.position.column - 1) =
      firstLine (token.value.toList ++ behind) := by
    rw [hline, hcolumn, Nat.add_sub_cancel, List.drop_left]
  constructor
  · intro c hc
    rw [toList_sourceLine] at hc
    exact not_isLineBreak_of_mem_lineAfter hc
  · rw [hcolumn]
    exact Nat.succ_pos front.length
  · rw [hline, hcolumn, Nat.add_sub_cancel, List.length_append]
    exact Nat.le_add_right _ _
  · rw [hdrop, firstLine_of_unbroken hunbroken]
    exact List.prefix_append _ _
  · intro hkind
    rw [hdrop, heof hkind]
    rfl

namespace Cursor

variable {text : String} {cursor after : Cursor} {token : Token}

theorem shownIn_of_next? (h : cursor.Within text.toList)
    (hnext : cursor.next? = some (token, after)) :
    token.ShownIn text ∧ after.Within text.toList := by
  obtain ⟨hskip, hafter⟩ := skipBlanks_of_next? hnext
  have hstands : StandsAt text.toList token.position (token.value.toList ++ after.rest) := by
    have hwithin := h.skipBlanks
    rw [hskip] at hwithin
    exact hwithin
  have hunbroken := not_isLineBreak_of_next? hnext
  constructor
  · exact hstands.shownIn hunbroken fun heof ↦ absurd heof (kind_ne_eof_of_next? hnext)
  · rw [Within, hafter]
    exact hstands.advance hunbroken

theorem shownIn_endToken (h : cursor.Within text.toList) (hrest : cursor.rest = []) :
    cursor.endToken.ShownIn text := by
  have hstands : StandsAt text.toList cursor.endToken.position
      (cursor.endToken.value.toList ++ []) := by
    rw [Within, hrest] at h
    exact h
  exact hstands.shownIn nofun fun _ ↦ rfl

theorem rest_drain (cursor : Cursor) : cursor.drain.2.rest = [] := by
  fun_induction drain cursor with
  | case1 cursor hnone => exact skipBlanks_rest_of_next?_eq_none hnone
  | case2 cursor token after hnext tokens stop hdrain ih =>
    rw [hdrain] at ih
    exact ih

theorem shownIn_drain (h : cursor.Within text.toList) :
    (∀ token ∈ cursor.drain.1, token.ShownIn text) ∧ cursor.drain.2.Within text.toList := by
  fun_induction drain cursor with
  | case1 cursor hnone => exact ⟨List.forall_mem_nil _, h.skipBlanks⟩
  | case2 cursor token after hnext tokens stop hdrain ih =>
    obtain ⟨hshown, hafter⟩ := shownIn_of_next? h hnext
    rw [hdrain] at ih
    obtain ⟨hothers, hstop⟩ := ih hafter
    exact ⟨List.forall_mem_cons.2 ⟨hshown, hothers⟩, hstop⟩

end Cursor

/-- The tokens in an answer. -/
def Pulled.tokens : Pulled → List Token
  | .token given => [given]
  | .next given => given.toList
  | .count _ => []
  | .all given => given

namespace Cursor

variable {text : String} {cursor : Cursor}

/-- Each way of asking leaves the cursor where it knows its place. -/
theorem shownIn_pull (h : cursor.Within text.toList) (asked : Pull) :
    (∀ token ∈ (cursor.pull asked).1.tokens, token.ShownIn text) ∧
      (cursor.pull asked).2.Within text.toList := by
  obtain ⟨hdrained, hstop⟩ := shownIn_drain h
  cases asked with
  | token =>
    cases hnext : cursor.next? with
    | some step =>
      obtain ⟨token, after⟩ := step
      simp only [pull, nextToken, hnext, Pulled.tokens, List.forall_mem_singleton]
      exact shownIn_of_next? h hnext
    | none =>
      simp only [pull, nextToken, hnext, Pulled.tokens, List.forall_mem_singleton]
      exact ⟨shownIn_endToken h.skipBlanks (skipBlanks_rest_of_next?_eq_none hnext), h.skipBlanks⟩
  | next =>
    cases hnext : cursor.next? with
    | some step =>
      obtain ⟨token, after⟩ := step
      simp only [pull, hnext, Pulled.tokens, Option.toList_some, List.forall_mem_singleton]
      exact shownIn_of_next? h hnext
    | none =>
      simp only [pull, hnext, Pulled.tokens]
      exact ⟨nofun, h.skipBlanks⟩
  | count => exact ⟨nofun, hstop⟩
  | all => exact ⟨hdrained, hstop⟩

theorem shownIn_pulls (h : cursor.Within text.toList) (asked : List Pull) :
    ∀ answer ∈ cursor.pulls asked, ∀ token ∈ answer.tokens, token.ShownIn text := by
  induction asked generalizing cursor with
  | nil => exact nofun
  | cons first asked ih =>
    obtain ⟨hshown, hafter⟩ := shownIn_pull h first
    exact List.forall_mem_cons.2 ⟨hshown, ih hafter⟩

end Cursor

end ShellLine
