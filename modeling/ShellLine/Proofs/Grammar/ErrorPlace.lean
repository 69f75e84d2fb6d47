import ShellLine.Proofs.Grammar.Scan
import ShellLine.Proofs.Token.Place

/-!
# Errors point at the offending token

A parse error carries the position of the first token with a fault, and quotes the
line to which this position points. So the quoted line shows the token behind the
characters in front of the column, and ends there if the input did.
-/

namespace ShellLine

open Grammar Text

theorem Grammar.mem_of_firstFault {previous : Option Token} {tokens : List Token}
    {cause : ParseError.Cause} {token : Token}
    (h : firstFault previous tokens = some (cause, token)) : token ∈ tokens := by
  induction tokens generalizing previous with
  | nil => cases h
  | cons first rest ih =>
    rw [firstFault] at h
    split at h
    · cases h
      exact List.mem_cons_self ..
    · exact List.mem_cons_of_mem first (ih h)

/-- The tokens of a text and the end of its input are found in it at their positions. -/
theorem shownIn_of_mem {text : String} {token : Token}
    (h : token ∈ tokenize text ++ [endOfInput text]) : token.ShownIn text := by
  obtain ⟨htokens, hstop⟩ := Cursor.shownIn_drain (Cursor.within_ofText text)
  rcases List.mem_append.1 h with htoken | hend
  · exact htokens token htoken
  · rw [List.mem_singleton.1 hend]
    exact Cursor.shownIn_endToken hstop (Cursor.ofText text).rest_drain

/-- An error has the cause and the place of the first fault. -/
theorem exists_fault_of_parse_eq_error {text : String} {e : ParseError}
    (h : parse text = .error e) :
    ∃ token, firstFault none (tokenize text ++ [endOfInput text]) = some (e.cause, token) ∧
      e.position = token.position ∧ e.sourceLine = sourceLine text token.position.line := by
  have hend : (endOfInput text).kind = .eof := rfl
  have hagrees := agrees_nodes (wellFormed_tokenize text) hend
  unfold parse at h
  cases hnodes : nodes (tokenize text) with
  | ok ns =>
    rw [hnodes] at h
    cases h
  | error failure =>
    rw [hnodes] at h hagrees
    cases h
    exact ⟨failure.rest.headD (endOfInput text), hagrees, rfl, rfl⟩

/-- Every token that is given for a text, in whatever way it was asked for, is found in the text
at its position. The line that an error quotes shows the token at which the error arose. -/
theorem positions_show_tokens (text : String) :
    (∀ asked : List Pull, ∀ answer ∈ (Cursor.ofText text).pulls asked,
      ∀ token ∈ answer.tokens,
        token.StandsIn (sourceLine text token.position.line) token.position.column) ∧
    ∀ e, parse text = .error e →
      ∃ token ∈ tokenize text ++ [endOfInput text],
        firstFault none (tokenize text ++ [endOfInput text]) = some (e.cause, token) ∧
          e.position = token.position ∧ token.StandsIn e.sourceLine e.position.column := by
  refine ⟨fun asked ↦ Cursor.shownIn_pulls (Cursor.within_ofText text) asked, fun e h ↦ ?_⟩
  obtain ⟨token, hfault, hposition, hline⟩ := exists_fault_of_parse_eq_error h
  have hmem := mem_of_firstFault hfault
  refine ⟨token, hmem, hfault, hposition, ?_⟩
  rw [hline, hposition]
  exact shownIn_of_mem hmem

theorem positions_show_tokens_behind_breaks :
    ∃ e, parse "a\r\n\r\u2003é | ; b" = .error e ∧
      ∃ token ∈ tokenize "a\r\n\r\u2003é | ; b" ++ [endOfInput "a\r\n\r\u2003é | ; b"],
        firstFault none (tokenize "a\r\n\r\u2003é | ; b" ++
          [endOfInput "a\r\n\r\u2003é | ; b"]) = some (e.cause, token) ∧
          e.position = token.position ∧ token.StandsIn e.sourceLine e.position.column := by
  have h : parse "a\r\n\r\u2003é | ; b" =
      .error ⟨.operatorAfterOperator "|" ";", ⟨3, 6⟩, "\u2003é | ; b"⟩ := by
    decide +kernel
  exact ⟨_, h, (positions_show_tokens _).2 _ h⟩

end ShellLine
