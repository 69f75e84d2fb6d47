import ShellLine.Proofs.Token.Counting

/-!
# Pulls consume one list of tokens

A text has one list of tokens, and every way of asking for tokens takes from the front of
what is left of it. When nothing is left, each answer is about the end of the input, which
stays in its place behind the last blank. So the answers to any run of pulls can be told
from the list alone.

A cursor is known by the tokens ahead of it and by where they end. What it has skipped
already makes no difference, although it is another cursor then.
-/

namespace ShellLine

/-! ## Answers of a list -/

namespace Pull

/-- What a list of tokens answers, with the end of the input behind its last token. -/
def answer (tokens : List Token) (stop : Token) : Pull → Pulled
  | .token => .token (tokens.headD stop)
  | .next => .next tokens.head?
  | .count => .count tokens.length
  | .all => .all tokens

/-- What is left of a list behind an answer. -/
def left (tokens : List Token) : Pull → List Token
  | .token => tokens.tail
  | .next => tokens.tail
  | .count => []
  | .all => []

/-- The answers of a list to a run of pulls. -/
def answers (stop : Token) (tokens : List Token) : List Pull → List Pulled
  | [] => []
  | asked :: others => asked.answer tokens stop :: answers stop (asked.left tokens) others

/-- What a run of pulls leaves of a list. -/
def leftAfter (tokens : List Token) (asked : List Pull) : List Token :=
  asked.foldl left tokens

theorem left_nil (asked : Pull) : asked.left [] = [] := by
  cases asked <;> rfl

end Pull

/-! ## A cursor answers as its list does -/

namespace Cursor

variable {cursor : Cursor}

/-- At the end of a text a cursor stays where it is. -/
theorem drain_of_rest_eq_nil (h : cursor.rest = []) : cursor.drain = ([], cursor) := by
  obtain ⟨rest, position⟩ := cursor
  cases h
  exact drain_of_next?_eq_none rfl

theorem drain_skipBlanks_of_next?_eq_none (h : cursor.next? = none) :
    cursor.skipBlanks.drain = cursor.drain := by
  calc
    cursor.skipBlanks.drain = ([], cursor.skipBlanks) :=
      drain_of_rest_eq_nil (skipBlanks_rest_of_next?_eq_none h)
    _ = cursor.drain := (drain_of_next?_eq_none h).symm

/-- One answer comes from the list ahead, of which it takes what it gives. The end of the list
does not move. -/
theorem pull_consumes (cursor : Cursor) (asked : Pull) :
    (cursor.pull asked).1 = asked.answer cursor.drain.1 cursor.drain.2.endToken ∧
      (cursor.pull asked).2.drain = (asked.left cursor.drain.1, cursor.drain.2) := by
  cases asked with
  | token =>
    cases hnext : cursor.next? with
    | none =>
      have hstays := drain_skipBlanks_of_next?_eq_none hnext
      have hdrain := drain_of_next?_eq_none hnext
      simp only [pull, nextToken, hnext, hstays, hdrain]
      exact ⟨rfl, rfl⟩
    | some step =>
      have hdrain := drain_of_next?_eq_some hnext
      simp only [pull, nextToken, hnext, hdrain]
      exact ⟨rfl, rfl⟩
  | next =>
    cases hnext : cursor.next? with
    | none =>
      have hstays := drain_skipBlanks_of_next?_eq_none hnext
      have hdrain := drain_of_next?_eq_none hnext
      simp only [pull, hnext, hstays, hdrain]
      exact ⟨rfl, rfl⟩
    | some step =>
      have hdrain := drain_of_next?_eq_some hnext
      simp only [pull, hnext, hdrain]
      exact ⟨rfl, rfl⟩
  | count => exact ⟨rfl, drain_of_rest_eq_nil cursor.rest_drain⟩
  | all => exact ⟨rfl, drain_of_rest_eq_nil cursor.rest_drain⟩

theorem pulls_eq_answers (cursor : Cursor) (asked : List Pull) :
    cursor.pulls asked = Pull.answers cursor.drain.2.endToken cursor.drain.1 asked := by
  induction asked generalizing cursor with
  | nil => rfl
  | cons first others ih =>
    obtain ⟨hanswer, hleft⟩ := cursor.pull_consumes first
    calc
      cursor.pulls (first :: others) =
          (cursor.pull first).1 :: (cursor.pull first).2.pulls others := rfl
      _ = Pull.answers cursor.drain.2.endToken cursor.drain.1 (first :: others) := by
        rw [ih, hanswer, hleft, Pull.answers]

theorem drain_afterPulls (cursor : Cursor) (asked : List Pull) :
    (cursor.afterPulls asked).drain = (Pull.leftAfter cursor.drain.1 asked, cursor.drain.2) := by
  induction asked generalizing cursor with
  | nil => rfl
  | cons first others ih =>
    calc
      (cursor.afterPulls (first :: others)).drain =
          ((cursor.pull first).2.afterPulls others).drain := rfl
      _ = (Pull.leftAfter (first.left cursor.drain.1) others, cursor.drain.2) := by
        rw [ih, (cursor.pull_consumes first).2]
      _ = (Pull.leftAfter cursor.drain.1 (first :: others), cursor.drain.2) := rfl

/-- Cursors with the same tokens ahead, up to the same end, answer alike. -/
theorem pulls_congr {other : Cursor} (h : cursor.drain = other.drain) (asked : List Pull) :
    cursor.pulls asked = other.pulls asked := by
  rw [pulls_eq_answers, pulls_eq_answers, h]

/-- One more pull at the end of the tokens is not noticed by those behind it. -/
theorem drain_afterPulls_concat {before : List Pull}
    (h : Pull.leftAfter cursor.drain.1 before = []) (asked : Pull) :
    (cursor.afterPulls (before ++ [asked])).drain = (cursor.afterPulls before).drain := by
  have hleft : Pull.leftAfter cursor.drain.1 (before ++ [asked]) = [] := by
    rw [Pull.leftAfter, List.foldl_append]
    change asked.left (Pull.leftAfter cursor.drain.1 before) = []
    rw [h, asked.left_nil]
  rw [drain_afterPulls, drain_afterPulls, hleft, h]

end Cursor

/-! ## The end of the input -/

theorem endOfInput_eq (text : String) : endOfInput text = ⟨.eof, "", .behind text.toList⟩ := by
  have hcounts := (Cursor.countsIn_ofText text).reaches (Cursor.ofText text).reaches_drain
  obtain ⟨front, htext, hposition, -⟩ := hcounts
  rw [Cursor.rest_drain, List.append_nil] at htext
  rw [endOfInput, Cursor.endToken, hposition, htext]

/-- The answers to any run of pulls are those of the list of all tokens, consumed from the front.
Behind it stands the end of the input, at the place behind the whole text. When nothing is left of
the list, a pull makes no difference to any that follows it. -/
theorem pulls_consume_tokens (text : String) :
    (∀ asked, (Cursor.ofText text).pulls asked =
      Pull.answers (endOfInput text) (tokenize text) asked) ∧
    endOfInput text = ⟨.eof, "", ⟨Text.lineBreaks text.toList + 1,
      (Text.lastLine text.toList).length + 1⟩⟩ ∧
    ∀ before, Pull.leftAfter (tokenize text) before = [] → ∀ asked behind,
      ((Cursor.ofText text).afterPulls (before ++ [asked])).pulls behind =
        ((Cursor.ofText text).afterPulls before).pulls behind := by
  refine ⟨(Cursor.ofText text).pulls_eq_answers, endOfInput_eq text, ?_⟩
  intro before hnothing asked behind
  exact Cursor.pulls_congr (Cursor.drain_afterPulls_concat hnothing asked) behind

theorem pulls_consume_tokens_behind_end :
    (Cursor.ofText "a 2>é\r\n ").pulls [.next, .token, .count, .token, .next, .token, .count, .all] =
      [.next (some ⟨.word, "a", ⟨1, 1⟩⟩), .token ⟨.ioNumber, "2", ⟨1, 3⟩⟩, .count 2,
        .token ⟨.eof, "", ⟨2, 2⟩⟩, .next none, .token ⟨.eof, "", ⟨2, 2⟩⟩, .count 0, .all []] ∧
    Pull.leftAfter (tokenize "a 2>é\r\n ") [.token, .count] = [] ∧
    ∀ behind, ((Cursor.ofText "a 2>é\r\n ").afterPulls [.token, .count, .next]).pulls behind =
      ((Cursor.ofText "a 2>é\r\n ").afterPulls [.token, .count]).pulls behind := by
  obtain ⟨hanswers, hstop, hquiet⟩ := pulls_consume_tokens "a 2>é\r\n "
  have htokens : tokenize "a 2>é\r\n " = [⟨.word, "a", ⟨1, 1⟩⟩, ⟨.ioNumber, "2", ⟨1, 3⟩⟩,
      ⟨.redirection .write, ">", ⟨1, 4⟩⟩, ⟨.word, "é", ⟨1, 5⟩⟩] := by
    decide +kernel
  have hnothing : Pull.leftAfter (tokenize "a 2>é\r\n ") [.token, .count] = [] := rfl
  refine ⟨?_, hnothing, hquiet _ hnothing .next⟩
  rw [hanswers, htokens, hstop]
  rfl

end ShellLine
