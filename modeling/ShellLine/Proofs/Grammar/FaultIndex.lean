import ShellLine.Proofs.Grammar.ErrorPlace
import ShellLine.Proofs.Token.Ascending

/-!
# Which token of a text is at fault

The scan for the first fault goes from left to right and sees kinds and values only. So
tokens behind the fault make no difference, and neither do places: a text whose tokens
begin alike fails at the same index, for the same cause.

An error gives no index. Positions ascend, so its position tells which token it means.
-/

namespace ShellLine.Grammar

open ParseError (Cause)

/-! ## Faults behind other tokens -/

/-- Places do not matter. -/
theorem fault_congr {previous previous' : Option Token} {token token' : Token}
    (hprevious : previous.map Token.terminal = previous'.map Token.terminal)
    (htoken : token.terminal = token'.terminal) :
    fault previous token = fault previous' token' := by
  obtain ⟨kind, value, position⟩ := token
  obtain ⟨kind', value', position'⟩ := token'
  cases htoken
  cases previous with
  | none =>
    obtain rfl := Option.map_eq_none_iff.1 hprevious.symm
    cases kind with
    | reserved w => cases w <;> rfl
    | _ => rfl
  | some before =>
    obtain ⟨before', rfl, hbefore⟩ := Option.map_eq_some_iff.1 hprevious.symm
    obtain ⟨kind', value', position'⟩ := before
    obtain ⟨kind'', value'', position''⟩ := before'
    cases hbefore
    cases kind' with
    | control op =>
      cases kind with
      | reserved w => cases w <;> rfl
      | _ => rfl
    | _ => rfl

/-- The token in front of all matters to the first one only. -/
theorem firstFault_cons_congr {previous previous' : Option Token} {token : Token}
    (h : fault previous token = fault previous' token) (rest : List Token) :
    firstFault previous (token :: rest) = firstFault previous' (token :: rest) := by
  rw [firstFault, firstFault, h]

theorem getLast?_cons_or (previous : Option Token) (token : Token) (rest : List Token) :
    (token :: rest).getLast?.or previous = rest.getLast?.or (some token) := by
  rw [List.getLast?_cons]
  cases rest.getLast? <;> rfl

/-- Behind some tokens the scan goes on with the last of them. -/
theorem firstFault_append (previous : Option Token) (before after : List Token) :
    firstFault previous (before ++ after) =
      (firstFault previous before).or (firstFault (before.getLast?.or previous) after) := by
  induction before generalizing previous with
  | nil => rfl
  | cons token rest ih =>
    rw [List.cons_append, getLast?_cons_or, firstFault, firstFault]
    cases fault previous token with
    | some cause => rfl
    | none => exact ih (some token)

theorem exists_of_firstFault_eq_some {previous : Option Token} {tokens : List Token}
    {token : Token} {cause : Cause} (h : firstFault previous tokens = some (cause, token)) :
    ∃ before after, tokens = before ++ token :: after ∧ firstFault previous before = none ∧
      fault (before.getLast?.or previous) token = some cause := by
  induction tokens generalizing previous with
  | nil => cases h
  | cons first rest ih =>
    cases hfirst : fault previous first with
    | some cause' =>
      rw [firstFault_of_eq_some rest hfirst] at h
      cases h
      exact ⟨[], rest, rfl, rfl, hfirst⟩
    | none =>
      rw [firstFault_of_eq_none rest hfirst] at h
      obtain ⟨before, after, rfl, hnone, hfault⟩ := ih h
      refine ⟨first :: before, after, rfl, ?_, ?_⟩
      · rw [firstFault_of_eq_none before hfirst]
        exact hnone
      · rw [getLast?_cons_or]
        exact hfault

theorem firstFault_eq_none_congr {previous previous' : Option Token} {tokens tokens' : List Token}
    (hprevious : previous.map Token.terminal = previous'.map Token.terminal)
    (htokens : tokens.map Token.terminal = tokens'.map Token.terminal)
    (h : firstFault previous tokens = none) : firstFault previous' tokens' = none := by
  induction tokens generalizing previous previous' tokens' with
  | nil =>
    obtain rfl := List.map_eq_nil_iff.1 htokens.symm
    rfl
  | cons token rest ih =>
    obtain ⟨token', rest', rfl, htoken, hrest⟩ := List.map_eq_cons_iff.1 htokens.symm
    cases hfault : fault previous token with
    | some cause =>
      rw [firstFault_of_eq_some rest hfault] at h
      cases h
    | none =>
      have hfault' := (fault_congr hprevious htoken.symm).symm.trans hfault
      rw [firstFault_of_eq_none rest hfault] at h
      rw [firstFault_of_eq_none rest' hfault']
      have hlast : (some token).map Token.terminal = (some token').map Token.terminal :=
        congrArg some htoken.symm
      exact ih hlast hrest.symm h

/-- Tokens with other places have the same first fault, at its other place. -/
theorem firstFault_map {f : Token → Token} (hf : ∀ token, (f token).terminal = token.terminal)
    (previous : Option Token) (tokens : List Token) :
    firstFault (previous.map f) (tokens.map f) =
      (firstFault previous tokens).map fun found ↦ (found.1, f found.2) := by
  induction tokens generalizing previous with
  | nil => rfl
  | cons token rest ih =>
    have hprevious : (previous.map f).map Token.terminal = previous.map Token.terminal := by
      rw [Option.map_map]
      exact Option.map_congr fun before _ ↦ hf before
    have hfault := fault_congr hprevious (hf token)
    rw [List.map_cons, firstFault, firstFault, hfault]
    cases fault previous token with
    | some cause => rfl
    | none => exact ih (some token)

/-- Some tokens without a fault, and a token behind them that has one. -/
structure FaultBehind (before : List Token) (token : Token) (cause : Cause) : Prop where
  firstFault_eq_none : firstFault none before = none
  fault_eq_some : fault before.getLast? token = some cause

theorem FaultBehind.firstFault_eq_some {before : List Token} {token : Token} {cause : Cause}
    (h : FaultBehind before token cause) (after : List Token) :
    firstFault none (before ++ token :: after) = some (cause, token) := by
  rw [firstFault_append, h.firstFault_eq_none, Option.none_or, Option.or_none]
  exact firstFault_of_eq_some after h.fault_eq_some

theorem FaultBehind.congr {before before' : List Token} {token token' : Token} {cause : Cause}
    (h : FaultBehind before token cause)
    (hbefore : before.map Token.terminal = before'.map Token.terminal)
    (htoken : token.terminal = token'.terminal) : FaultBehind before' token' cause := by
  have hlast : before.getLast?.map Token.terminal = before'.getLast?.map Token.terminal := by
    rw [← List.getLast?_map, ← List.getLast?_map, hbefore]
  exact ⟨firstFault_eq_none_congr rfl hbefore h.firstFault_eq_none,
    (fault_congr hlast htoken).symm.trans h.fault_eq_some⟩

theorem exists_faultBehind {tokens : List Token} {token : Token} {cause : Cause}
    (h : firstFault none tokens = some (cause, token)) :
    ∃ before after, tokens = before ++ token :: after ∧ FaultBehind before token cause := by
  obtain ⟨before, after, htokens, hnone, hfault⟩ := exists_of_firstFault_eq_some h
  rw [Option.or_none] at hfault
  exact ⟨before, after, htokens, hnone, hfault⟩

end ShellLine.Grammar

namespace ShellLine

open Grammar

/-! ## Texts with a fault -/

variable {text : String}

/-- A text without a fault is a program. -/
theorem exists_parse_of_firstFault_eq_none
    (h : firstFault none (tokenize text ++ [endOfInput text]) = none) :
    ∃ program, parse text = .ok program := by
  cases hparse : parse text with
  | ok program => exact ⟨program, rfl⟩
  | error e =>
    obtain ⟨token, hfault, -⟩ := exists_fault_of_parse_eq_error hparse
    rw [h] at hfault
    cases hfault

theorem firstFault_eq_none_of_parse {program : Program} (h : parse text = .ok program) :
    firstFault none (tokenize text ++ [endOfInput text]) = none := by
  have hend : (endOfInput text).kind = .eof := rfl
  have hagrees := agrees_nodes (wellFormed_tokenize text) hend
  unfold parse at h
  split at h
  · next ns hnodes =>
    rw [hnodes] at hagrees
    exact hagrees
  · cases h

/-- A text fails at the first fault of its tokens. -/
theorem parse_of_firstFault {cause : ParseError.Cause} {token : Token}
    (h : firstFault none (tokenize text ++ [endOfInput text]) = some (cause, token)) :
    parse text = .error ⟨cause, token.position, Text.sourceLine text token.position.line⟩ := by
  cases hparse : parse text with
  | ok program =>
    rw [firstFault_eq_none_of_parse hparse] at h
    cases h
  | error e =>
    obtain ⟨token', hfault, hposition, hline⟩ := exists_fault_of_parse_eq_error hparse
    rw [h] at hfault
    cases hfault
    rw [← hposition] at hline ⊢
    rw [← hline]

/-- The number of tokens in front of the one at which an error arose. The end of the input counts
as a token. -/
def ParseError.index (e : ParseError) (text : String) : Nat :=
  (tokenize text ++ [endOfInput text]).findIdx fun token ↦ token.position = e.position

theorem exists_faultBehind_of_parse {e : ParseError} (h : parse text = .error e) :
    ∃ before token after, tokenize text ++ [endOfInput text] = before ++ token :: after ∧
      FaultBehind before token e.cause ∧ token.position = e.position ∧
        e.index text = before.length := by
  obtain ⟨token, hfault, hposition, -⟩ := exists_fault_of_parse_eq_error h
  obtain ⟨before, after, hstream, hbehind⟩ := exists_faultBehind hfault
  refine ⟨before, token, after, hstream, hbehind, hposition.symm, ?_⟩
  rw [ParseError.index, hposition]
  exact findIdx_position hstream

/-- Where a text begins with these tokens, no matter how they are laid out, it fails at the one that
is at fault. What comes behind makes no difference. -/
theorem Grammar.FaultBehind.exists_parse_eq_error {before : List Token} {token : Token}
    {cause : ParseError.Cause} (h : FaultBehind before token cause)
    (hfront : (before ++ [token]).map Token.terminal <+:
      (tokenize text ++ [endOfInput text]).map Token.terminal) :
    ∃ e, parse text = .error e ∧ e.cause = cause ∧ e.index text = before.length := by
  obtain ⟨after, hstream⟩ := hfront
  rw [List.map_append, List.map_singleton, List.append_assoc] at hstream
  obtain ⟨before', rest', hsplit, hbefore, hrest⟩ := List.map_eq_append_iff.1 hstream.symm
  obtain ⟨token', after', rfl, htoken, -⟩ := List.map_eq_cons_iff.1 hrest
  have hfault := (h.congr hbefore.symm htoken.symm).firstFault_eq_some after'
  rw [← hsplit] at hfault
  have hlength : before'.length = before.length := by
    rw [← List.length_map (f := Token.terminal), hbefore, List.length_map]
  exact ⟨_, parse_of_firstFault hfault, rfl, (findIdx_position hsplit).trans hlength⟩

end ShellLine
