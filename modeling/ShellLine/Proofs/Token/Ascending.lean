import ShellLine.Token.Cursor

/-!
# Positions ascend

A cursor never goes back. Every token of a text stands behind the tokens in front of
it, and the end of the input stands behind all of them. So a position belongs to one
token only, and tells how many tokens come before it.
-/

namespace ShellLine

namespace Position

/-- In a line above, or further to the left in the same line. -/
def Before (p q : Position) : Prop :=
  p.line < q.line ∨ p.line = q.line ∧ p.column < q.column

variable {p q r : Position}

theorem not_before_self (p : Position) : ¬ p.Before p := by
  unfold Before
  omega

theorem Before.trans (h : p.Before q) (h' : q.Before r) : p.Before r := by
  unfold Before at *
  omega

theorem Before.trans_not_before (h : p.Before q) (h' : ¬ r.Before q) : p.Before r := by
  unfold Before at *
  omega

theorem Before.ne (h : p.Before q) : p ≠ q := by
  rintro rfl
  exact p.not_before_self h

theorem before_advance (p : Position) {characters : Nat} (h : 0 < characters) :
    p.Before (p.advance characters) :=
  .inr ⟨rfl, Nat.lt_add_of_pos_right h⟩

theorem before_nextLine (p : Position) : p.Before p.nextLine :=
  .inl (Nat.lt_succ_self p.line)

theorem line_pos_of_not_before_start (h : ¬ p.Before start) : 0 < p.line := by
  simp only [Before, start] at h
  omega

end Position

namespace Cursor

theorem not_before_afterBlanks (text : List Char) (position : Position) :
    ¬ (afterBlanks text position).position.Before position := by
  fun_induction afterBlanks text position with
  | case1 position => exact position.not_before_self
  | case2 rest position ih => exact fun h ↦ ih (h.trans position.before_nextLine)
  | case3 c rest position _ _ ih => exact fun h ↦ ih (h.trans position.before_nextLine)
  | case4 c rest position _ _ _ ih =>
    exact fun h ↦ ih (h.trans (position.before_advance Nat.one_pos))
  | case5 c rest position => exact position.not_before_self

variable {cursor after : Cursor} {token : Token}

/-- A token has characters, so the cursor behind it stands further on. -/
theorem before_of_next? (h : cursor.next? = some (token, after)) :
    token.position = cursor.skipBlanks.position ∧ token.position.Before after.position := by
  unfold next? at h
  split at h
  · cases h
  · next c cs position hstart =>
    cases h
    rw [hstart]
    exact ⟨rfl, position.before_advance (List.length_pos_iff.2 (Lexeme.chars_ne_nil c cs))⟩

/-- All that is read in front of a cursor, with the end of the input behind it. -/
theorem pairwise_before_drain (cursor : Cursor) :
    (cursor.drain.1 ++ [cursor.drain.2.endToken]).Pairwise
        (fun a b ↦ a.position.Before b.position) ∧
      ∀ token ∈ cursor.drain.1 ++ [cursor.drain.2.endToken],
        ¬ token.position.Before cursor.position := by
  fun_induction drain cursor with
  | case1 cursor =>
    refine ⟨List.pairwise_singleton _ _, List.forall_mem_singleton.2 ?_⟩
    exact not_before_afterBlanks cursor.rest cursor.position
  | case2 cursor token after hnext tokens stop hdrain ih =>
    rw [hdrain] at ih
    obtain ⟨hpairwise, hbehind⟩ := ih
    obtain ⟨hstart, hafter⟩ := before_of_next? hnext
    have hfirst : ∀ other ∈ tokens ++ [stop.endToken],
        token.position.Before other.position :=
      fun other hother ↦ hafter.trans_not_before (hbehind other hother)
    have hskipped : ¬ token.position.Before cursor.position := by
      rw [hstart]
      exact not_before_afterBlanks cursor.rest cursor.position
    refine ⟨List.pairwise_cons.2 ⟨hfirst, hpairwise⟩, List.forall_mem_cons.2 ⟨hskipped, ?_⟩⟩
    exact fun other hother hback ↦ hskipped ((hfirst other hother).trans hback)

end Cursor

/-- The tokens of a text and the end of its input, each behind the one before. -/
theorem pairwise_before_tokenize (text : String) :
    (tokenize text ++ [endOfInput text]).Pairwise fun a b ↦ a.position.Before b.position :=
  (Cursor.pairwise_before_drain (Cursor.ofText text)).1

theorem line_pos_of_mem {text : String} {token : Token}
    (h : token ∈ tokenize text ++ [endOfInput text]) : 0 < token.position.line :=
  Position.line_pos_of_not_before_start
    ((Cursor.pairwise_before_drain (Cursor.ofText text)).2 token h)

/-- The first token at the position of a token is this token. -/
theorem findIdx_position {text : String} {before after : List Token} {token : Token}
    (h : tokenize text ++ [endOfInput text] = before ++ token :: after) :
    (tokenize text ++ [endOfInput text]).findIdx
      (fun other ↦ other.position = token.position) = before.length := by
  have hpairwise := pairwise_before_tokenize text
  rw [h] at hpairwise ⊢
  have hother : ∀ other ∈ before, decide (other.position = token.position) = false := by
    intro other hother
    have hbefore := (List.pairwise_append.1 hpairwise).2.2 other hother token
      (List.mem_cons_self ..)
    exact decide_eq_false hbefore.ne
  have hnone := List.findIdx_eq_length_of_false hother
  have hfirst : decide (token.position = token.position) = true := decide_eq_true rfl
  rw [List.findIdx_append, hnone, if_neg (Nat.lt_irrefl _), List.findIdx_cons, hfirst, cond_true,
    Nat.zero_add]

end ShellLine
