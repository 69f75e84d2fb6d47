import ShellLine.ParseError

/-!
# Reading constructs from tokens

A reader takes one construct from the front of a list of tokens. It gives
nothing where the tokens have ended, and it fails at the first token that cannot
be part of the construct. What it reads, it takes off the list.
-/

namespace ShellLine.Grammar

/-- The cause of a failure, and the tokens from the offending one on; none at the end of input. -/
structure Failure where
  cause : ParseError.Cause
  rest : List Token
  deriving DecidableEq

/-- A result that is passed on through a function has been given before. -/
theorem exists_of_map_eq_ok {α β ε : Type} {result : Except ε α} {f : α → β} {value : β}
    (h : result.map f = .ok value) : ∃ inner, result = .ok inner ∧ f inner = value := by
  cases result with
  | error failure => cases h
  | ok inner => exact ⟨inner, rfl, Except.ok.inj h⟩

/-- A reader of one construct, which takes at least one token when it gives a value. -/
structure Reader (α : Type) where
  read : List Token → Except Failure (Option (α × List Token))
  length_rest_lt : ∀ {tokens rest : List Token} {value : α},
    read tokens = .ok (some (value, rest)) → rest.length < tokens.length

end ShellLine.Grammar
