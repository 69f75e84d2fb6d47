import ShellLine.Grammar.Redirection

/-!
# Commands

A command is a word, which names it, with arguments and redirections behind it
in any order. Where a command has to begin, a reserved word opens a construct
that is not supported.
-/

namespace ShellLine.Grammar

/-- What stands behind the name of a command, and the tokens behind the command. -/
structure CommandTail where
  arguments : List String
  redirections : List Redirection
  rest : List Token

namespace CommandTail

def withArgument (word : String) (tail : CommandTail) : CommandTail :=
  { tail with arguments := word :: tail.arguments }

def withRedirection (redirection : Redirection) (tail : CommandTail) : CommandTail :=
  { tail with redirections := redirection :: tail.redirections }

end CommandTail

/-- The arguments and redirections up to the first token that is no part of either. -/
def commandTail (tokens : List Token) : Except Failure CommandTail :=
  match tokens with
  | [] => .ok ⟨[], [], []⟩
  | token :: rest =>
    if token.kind.isArgument then (commandTail rest).map (.withArgument token.value)
    else if token.kind.opensRedirection then
      match _h : redirection (token :: rest) with
      | .error failure => .error failure
      | .ok (value, after) => (commandTail after).map (.withRedirection value)
    else .ok ⟨[], [], token :: rest⟩
termination_by tokens.length
decreasing_by
  · simp
  · exact length_rest_lt_of_redirection _h

theorem length_rest_le_of_commandTail {tokens : List Token} {tail : CommandTail}
    (h : commandTail tokens = .ok tail) : tail.rest.length ≤ tokens.length := by
  fun_induction commandTail tokens generalizing tail with
  | case1 => cases h; simp
  | case2 token rest _ ih =>
    obtain ⟨inner, hrest, rfl⟩ := exists_of_map_eq_ok h
    have shorter := ih hrest
    exact Nat.le_succ_of_le shorter
  | case3 => cases h
  | case4 token rest _ _ value after hread ih =>
    obtain ⟨inner, hrest, rfl⟩ := exists_of_map_eq_ok h
    have shorter := ih hrest
    exact Nat.le_of_lt (Nat.lt_of_le_of_lt shorter (length_rest_lt_of_redirection hread))
  | case5 => cases h; simp

/-- A command, or the failure at the token that cannot begin one. -/
def readCommand : List Token → Except Failure (Option (Node × List Token))
  | [] => .ok none
  | token :: rest =>
    match token.kind with
    | .word =>
      (commandTail rest).map fun tail ↦
        some (.simple ⟨token.value, tail.arguments, tail.redirections⟩, tail.rest)
    | .reserved .functionWord => .error ⟨.unsupported "function definition", token :: rest⟩
    | .reserved _ =>
      .error ⟨.unsupported ("`" ++ token.value ++ "` compound command"), token :: rest⟩
    | _ => .error ⟨.unexpectedToken token.value, token :: rest⟩

/-- The reader of one command. -/
def command : Reader Node where
  read := readCommand
  length_rest_lt {tokens rest value} h := by
    unfold readCommand at h
    split at h
    · cases h
    · next token behind =>
      split at h
      · cases htail : commandTail behind with
        | error failure => rw [htail] at h; cases h
        | ok tail =>
          rw [htail] at h
          cases h
          exact Nat.lt_succ_of_le (length_rest_le_of_commandTail htail)
      · cases h
      · cases h
      · cases h

@[simp] theorem read_command : command.read = readCommand := rfl

end ShellLine.Grammar
