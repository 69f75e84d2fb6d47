import ShellLine.Proofs.Grammar.FaultIndex
import ShellLine.Proofs.Token.Layout

/-!
# Errors are found as early as possible

The tokens in front of an error can be completed to a program: one word behind them is
enough, wherever the reader stands. With the token of the error they cannot be completed
any more, and every text that begins with them fails at this token. So an error is never
found too late, and never at a token that could still be continued.
-/

namespace ShellLine

open Grammar

/-! ## Completion -/

/-- A word is welcome behind every token. -/
theorem Grammar.fault_word (previous : Option Token) {token : Token} (h : token.kind = .word) :
    fault previous token = none := by
  cases previous with
  | none => simp only [fault, openingFault, h]
  | some before =>
    cases hkind : before.kind <;> simp [fault, openingFault, hkind, h, Token.Kind.isArgument]

theorem WellFormed.append_word {before after : List Token} {word : Token}
    (h : WellFormed (before ++ after))
    (hlast : ∀ last ∈ before.getLast?, last.kind ≠ .ioNumber)
    (hword : word.kind = .word) (hreadable : word.terminal.Readable) :
    WellFormed (before ++ [word]) := by
  induction before with
  | nil =>
    refine ⟨hreadable, fun hnumber ↦ ?_, trivial⟩
    rw [hword] at hnumber
    cases hnumber
  | cons token rest ih =>
    obtain ⟨hfirst, hglued, hrest⟩ := h
    cases rest with
    | nil =>
      refine ⟨hfirst, fun hnumber ↦ absurd hnumber (hlast token rfl), ?_⟩
      exact ih hrest nofun
    | cons next more =>
      refine ⟨hfirst, fun hnumber ↦ ?_, ih hrest hlast⟩
      obtain ⟨op, next', more', hcons, hop⟩ := hglued hnumber
      obtain rfl : next = next' := (List.cons.inj hcons).1
      exact ⟨op, next, more ++ [word], rfl, hop⟩

/-- What completes the tokens in front of an error. -/
def fillingWord : Token := ⟨.word, "x", .start⟩

theorem readable_fillingWord : fillingWord.terminal.Readable := by
  refine ⟨[], .inr ⟨by decide, fun w hspelling ↦ ?_⟩⟩
  have hspelled : w.spelling = "x" := (String.toList_inj.1 hspelling).symm
  have hnone : ReservedWord.ofString? "x" = none := by decide
  rw [ReservedWord.ofString?_eq_some_iff.2 hspelled] at hnone
  cases hnone

/-- Tokens of a text in front of a fault begin a program. -/
theorem Grammar.FaultBehind.exists_completion {before after : List Token} {token : Token}
    {cause : ParseError.Cause} (h : FaultBehind before token cause)
    (hformed : WellFormed (before ++ after)) :
    ∃ text program, parse text = .ok program ∧
      before.map Token.terminal <+: (tokenize text).map Token.terminal := by
  have hlast : ∀ last ∈ before.getLast?, last.kind ≠ .ioNumber := by
    intro last hmem hnumber
    have hfault := h.fault_eq_some
    rw [Option.mem_def.1 hmem] at hfault
    simp [fault, hnumber] at hfault
  have hcompleted := hformed.append_word hlast rfl readable_fillingWord
  obtain ⟨text, htext⟩ : ∃ text : String, text.toList = layOut (before ++ [fillingWord]) :=
    ⟨_, String.toList_ofList⟩
  have hlayout := isLayout_layOut (before ++ [fillingWord])
  rw [← htext] at hlayout
  have hterminals := hlayout.map_terminal_tokenize hcompleted
  have hnone : firstFault none (before ++ [fillingWord] ++ [endOfInput text]) = none := by
    rw [List.append_assoc, firstFault_append, h.firstFault_eq_none, Option.none_or]
    exact firstFault_of_eq_none _ (fault_word _ rfl)
  have hstream : (before ++ [fillingWord] ++ [endOfInput text]).map Token.terminal =
      (tokenize text ++ [endOfInput text]).map Token.terminal := by
    simp only [List.map_append, hterminals]
  obtain ⟨program, hparse⟩ :=
    exists_parse_of_firstFault_eq_none (firstFault_eq_none_congr rfl hstream hnone)
  refine ⟨text, program, hparse, ?_⟩
  rw [hterminals]
  exact (List.prefix_append before [fillingWord]).map Token.terminal

/-! ## The prefix of an error -/

theorem take_of_append_eq {α : Type} {xs before after : List α} {last x : α}
    (h : xs ++ [last] = before ++ x :: after) : xs.take before.length = before := by
  have hlength := congrArg List.length h
  simp only [List.length_append, List.length_cons, List.length_nil] at hlength
  have htake := congrArg (List.take before.length) h
  rw [List.take_append_of_le_length (by omega), List.take_left] at htake
  exact htake

/-- The tokens in front of an error begin some program. With the token at which it arose they begin
none: all texts that begin with them fail there, for the same cause. -/
theorem correct_prefix_of_parse_eq_error {text : String} {e : ParseError}
    (h : parse text = .error e) :
    (tokenize text ++ [endOfInput text])[e.index text]?.map Token.position = some e.position ∧
      (∃ text' program, parse text' = .ok program ∧
        ((tokenize text).map Token.terminal).take (e.index text) <+:
          (tokenize text').map Token.terminal) ∧
      (e.index text < (tokenize text).length →
        ∀ text', ((tokenize text).map Token.terminal).take (e.index text + 1) <+:
            (tokenize text').map Token.terminal →
          ∃ e', parse text' = .error e' ∧ e'.cause = e.cause ∧
            e'.index text' = e.index text) := by
  obtain ⟨before, token, after, hstream, hfault, hposition, hindex⟩ :=
    exists_faultBehind_of_parse h
  have hbefore := take_of_append_eq hstream
  rw [hindex, ← List.map_take, ← List.map_take, hbefore]
  refine ⟨?_, ?_, fun hlt text' hfront ↦ ?_⟩
  · rw [hstream, List.getElem?_append_right (Nat.le_refl _), Nat.sub_self]
    exact congrArg some hposition
  · have hformed := wellFormed_tokenize text
    rw [← List.take_append_drop before.length (tokenize text), hbefore] at hformed
    exact hfault.exists_completion hformed
  · have htoken : (tokenize text).take (before.length + 1) = before ++ [token] := by
      have htake := congrArg (List.take (before.length + 1)) hstream
      rw [List.take_append_of_le_length hlt, List.append_cons] at htake
      rw [htake]
      exact List.take_left' List.length_append
    rw [htoken] at hfront
    apply hfault.exists_parse_eq_error
    have hstream' := (List.prefix_append (tokenize text') [endOfInput text']).map Token.terminal
    exact hfront.trans hstream'

theorem correct_prefix_of_operator_after_and :
    ∃ e, parse "a 3<f &&|b" = .error e ∧ e.index "a 3<f &&|b" = 5 ∧
      (∃ text' program, parse text' = .ok program ∧
        ((tokenize "a 3<f &&|b").map Token.terminal).take 5 <+:
          (tokenize text').map Token.terminal) ∧
      ∀ text', ((tokenize "a 3<f &&|b").map Token.terminal).take 6 <+:
          (tokenize text').map Token.terminal →
        ∃ e', parse text' = .error e' ∧ e'.cause = e.cause ∧ e'.index text' = 5 := by
  have herror : parse "a 3<f &&|b" =
      .error ⟨.operatorAfterOperator "&&" "|", ⟨1, 9⟩, "a 3<f &&|b"⟩ := by
    decide +kernel
  have hindex : ParseError.index ⟨.operatorAfterOperator "&&" "|", ⟨1, 9⟩, "a 3<f &&|b"⟩
      "a 3<f &&|b" = 5 := by
    decide +kernel
  have hlt : 5 < (tokenize "a 3<f &&|b").length := by decide +kernel
  obtain ⟨-, hcompletion, hfails⟩ := correct_prefix_of_parse_eq_error herror
  rw [hindex] at hcompletion hfails
  exact ⟨_, herror, hindex, hcompletion, hfails hlt⟩

end ShellLine
