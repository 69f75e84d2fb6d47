import ShellLine.Grammar.Reader
import ShellLine.Program.Basic

/-!
# Redirections

A redirection is an operator with a word behind it, which names the target. A
number in front of the operator names the descriptor.
-/

namespace ShellLine.Grammar

/-- The descriptor written in decimal digits, when it fits. -/
def descriptor? (digits : String) : Option UInt32 :=
  let value := digits.toList.foldl (fun n c ↦ 10 * n + (c.toNat - '0'.toNat)) 0
  if digits.toList ≠ [] ∧ digits.toList.all Char.isDigit ∧ value < UInt32.size then
    some (UInt32.ofNat value)
  else none

/-- The target of a redirection, whose operator has been read. -/
def target (descriptor : Option UInt32) (operator : RedirectionOperator) (written : String) :
    List Token → Except Failure (Redirection × List Token)
  | [] => .error ⟨.missingTarget written, []⟩
  | token :: rest =>
    if token.kind.isArgument then .ok (⟨descriptor, operator, token.value⟩, rest)
    else .error ⟨.missingTarget written, token :: rest⟩

/-- The operator of a redirection and its target. -/
def attachment (descriptor : Option UInt32) :
    List Token → Except Failure (Redirection × List Token)
  | [] => .error ⟨.unexpectedToken "", []⟩
  | token :: rest =>
    match token.kind with
    | .redirection operator => target descriptor operator token.value rest
    | _ => .error ⟨.unexpectedToken token.value, token :: rest⟩

/-- A redirection, with or without a number in front. -/
def redirection : List Token → Except Failure (Redirection × List Token)
  | [] => attachment none []
  | token :: rest =>
    if token.kind = .ioNumber then attachment (descriptor? token.value) rest
    else attachment none (token :: rest)

theorem length_rest_lt_of_target {descriptor : Option UInt32} {operator : RedirectionOperator}
    {written : String} {tokens rest : List Token} {value : Redirection}
    (h : target descriptor operator written tokens = .ok (value, rest)) :
    rest.length < tokens.length := by
  unfold target at h
  split at h
  · cases h
  · split at h <;> cases h
    simp

theorem length_rest_lt_of_attachment {descriptor : Option UInt32} {tokens rest : List Token}
    {value : Redirection} (h : attachment descriptor tokens = .ok (value, rest)) :
    rest.length < tokens.length := by
  unfold attachment at h
  split at h
  · cases h
  · split at h
    · exact Nat.lt_succ_of_lt (length_rest_lt_of_target h)
    · cases h

theorem length_rest_lt_of_redirection {tokens rest : List Token} {value : Redirection}
    (h : redirection tokens = .ok (value, rest)) : rest.length < tokens.length := by
  unfold redirection at h
  split at h
  · cases h
  · split at h
    · exact Nat.lt_succ_of_lt (length_rest_lt_of_attachment h)
    · exact length_rest_lt_of_attachment h

end ShellLine.Grammar
