import ShellLine.Grammar.Command

/-!
# Chains of operators

The operators of one level join operands of the level below, and group to the
left. Behind an operator no other control operator may stand. An operand has to
follow, but for a separator, which may end the input.
-/

namespace ShellLine.Grammar

/-- The control operator at the front of the tokens. -/
def controlAhead? : List Token → Option Token
  | [] => none
  | token :: _ => if token.kind.isControl then some token else none

/-- The operators of a level and their right operands, joined to a left operand one by one. -/
def chainFrom (level : Level) (operand : Reader Node) (lhs : Node) (tokens : List Token) :
    Except Failure (Node × List Token) :=
  match tokens with
  | [] => .ok (lhs, [])
  | token :: rest =>
    match token.kind with
    | .control op =>
      if op.level = level then
        match controlAhead? rest with
        | some found => .error ⟨.operatorAfterOperator token.value found.value, rest⟩
        | none =>
          match _h : operand.read rest with
          | .error failure => .error failure
          | .ok (some (rhs, after)) => chainFrom level operand (op.join lhs rhs) after
          | .ok none =>
            match op.close? lhs with
            | some node => .ok (node, rest)
            | none => .error ⟨.endAfterOperator token.value, rest⟩
      else .ok (lhs, token :: rest)
    | _ => .ok (lhs, token :: rest)
termination_by tokens.length
decreasing_by exact Nat.lt_succ_of_lt (operand.length_rest_lt _h)

theorem length_rest_le_of_chainFrom {level : Level} {operand : Reader Node} {lhs node : Node}
    {tokens rest : List Token} (h : chainFrom level operand lhs tokens = .ok (node, rest)) :
    rest.length ≤ tokens.length := by
  fun_induction chainFrom level operand lhs tokens with
  | case1 => cases h; simp
  | case2 => cases h
  | case3 => cases h
  | case4 lhs token behind op _ _ _ rhs after hread ih =>
    have shorter := operand.length_rest_lt hread
    have := ih h
    simp only [List.length_cons]
    omega
  | case5 => cases h; simp
  | case6 => cases h
  | case7 => cases h; simp
  | case8 => cases h; simp

/-- An operand, and all that the operators of a level join to it. -/
def readChain (level : Level) (operand : Reader Node) (tokens : List Token) :
    Except Failure (Option (Node × List Token)) :=
  match operand.read tokens with
  | .error failure => .error failure
  | .ok none => .ok none
  | .ok (some (lhs, rest)) => (chainFrom level operand lhs rest).map some

/-- The reader of operands joined by the operators of a level. -/
def chain (level : Level) (operand : Reader Node) : Reader Node where
  read := readChain level operand
  length_rest_lt {tokens rest value} h := by
    unfold readChain at h
    split at h
    · cases h
    · cases h
    · next lhs behind hread =>
      cases hchain : chainFrom level operand lhs behind with
      | error failure => rw [hchain] at h; cases h
      | ok joined =>
        rw [hchain] at h
        cases h
        exact Nat.lt_of_le_of_lt (length_rest_le_of_chainFrom hchain)
          (operand.length_rest_lt hread)

@[simp] theorem read_chain (level : Level) (operand : Reader Node) :
    (chain level operand).read = readChain level operand := rfl

/-! ## The levels -/

/-- Commands joined by pipes. -/
def pipeline : Reader Node := chain .pipeline command

/-- Pipelines joined by conditionals. -/
def conditional : Reader Node := chain .conditional pipeline

/-- Conditionals joined by separators. -/
def sequence : Reader Node := chain .sequence conditional

end ShellLine.Grammar
