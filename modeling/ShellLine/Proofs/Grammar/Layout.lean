import ShellLine.Proofs.Grammar.FaultIndex
import ShellLine.Proofs.Token.Layout

/-!
# Layout does not matter

Two layouts of the same tokens are parsed alike. They give one program, or they fail for
one cause at the same token. Only the position and the quoted line of an error depend on
the blanks, and they are not compared here.
-/

namespace ShellLine

open Grammar

theorem map_terminal_stream {text text' : String}
    (h : (tokenize text').map Token.terminal = (tokenize text).map Token.terminal) :
    (tokenize text' ++ [endOfInput text']).map Token.terminal =
      (tokenize text ++ [endOfInput text]).map Token.terminal := by
  rw [List.map_append, List.map_append, h]
  rfl

/-- In every layout of the tokens of a text the same kinds and values are read. The program is the
same one; if there is none, an error has the same cause at the same index. -/
theorem parse_of_isLayout {text text' : String} (h : IsLayout (tokenize text) text'.toList) :
    (tokenize text').map Token.terminal = (tokenize text).map Token.terminal ∧
      ((∃ program, parse text = .ok program ∧ parse text' = .ok program) ∨
        ∃ e e', parse text = .error e ∧ parse text' = .error e' ∧ e'.cause = e.cause ∧
          e'.index text' = e.index text) := by
  have hterminals := h.map_terminal_tokenize (wellFormed_tokenize text)
  refine ⟨hterminals, ?_⟩
  cases hparse : parse text with
  | ok program =>
    have hderives := derivesProgram_of_parse hparse
    rw [← hterminals] at hderives
    exact .inl ⟨program, rfl, parse_of_derivesProgram hderives⟩
  | error e =>
    obtain ⟨before, token, after, hstream, hfault, -, hindex⟩ := exists_faultBehind_of_parse hparse
    have hfront : (before ++ [token]).map Token.terminal <+:
        (tokenize text' ++ [endOfInput text']).map Token.terminal := by
      rw [map_terminal_stream hterminals, hstream, List.append_cons before token after]
      exact (List.prefix_append (before ++ [token]) after).map Token.terminal
    obtain ⟨e', hparse', hcause, hindex'⟩ := hfault.exists_parse_eq_error hfront
    exact .inr ⟨e, e', rfl, hparse', hcause, hindex'.trans hindex.symm⟩

theorem parse_of_isLayout_over_lines :
    IsLayout (tokenize "a 2>x|;b") "\u2003a\r\n2> x\t|\u0085; b\n".toList ∧
      ∃ e e', parse "a 2>x|;b" = .error e ∧
        parse "\u2003a\r\n2> x\t|\u0085; b\n" = .error e' ∧ e'.cause = e.cause ∧
          e'.index "\u2003a\r\n2> x\t|\u0085; b\n" = e.index "a 2>x|;b" := by
  have htokens : tokenize "a 2>x|;b" =
      [⟨.word, "a", ⟨1, 1⟩⟩, ⟨.ioNumber, "2", ⟨1, 3⟩⟩, ⟨.redirection .write, ">", ⟨1, 4⟩⟩,
       ⟨.word, "x", ⟨1, 5⟩⟩, ⟨.control .pipe, "|", ⟨1, 6⟩⟩,
       ⟨.control (.separator .semicolon), ";", ⟨1, 7⟩⟩, ⟨.word, "b", ⟨1, 8⟩⟩] := by
    decide +kernel
  have hbody : LaidOut (tokenize "a 2>x|;b")
      ("a".toList ++ (['\r', '\n'] ++ ("2".toList ++ ([] ++ (">".toList ++ ([' '] ++
        ("x".toList ++ (['\t'] ++ ("|".toList ++ (['\u0085'] ++ (";".toList ++ ([' '] ++
          ("b".toList ++ (['\n'] ++ [])))))))))))))) := by
    rw [htokens]
    repeat' first
      | exact .nil
      | refine .cons (List.all_eq_true.1 (by decide)) (by decide) (by decide) ?_
  have hlayout : IsLayout (tokenize "a 2>x|;b") "\u2003a\r\n2> x\t|\u0085; b\n".toList :=
    ⟨['\u2003'], _, List.all_eq_true.1 (by decide), hbody, by decide +kernel⟩
  refine ⟨hlayout, ?_⟩
  obtain ⟨-, ⟨program, hparse, -⟩ | herrors⟩ := parse_of_isLayout hlayout
  · have herror : parse "a 2>x|;b" =
        .error ⟨.operatorAfterOperator "|" ";", ⟨1, 7⟩, "a 2>x|;b"⟩ := by
      decide +kernel
    rw [hparse] at herror
    cases herror
  · exact herrors

end ShellLine
