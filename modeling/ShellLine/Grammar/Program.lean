import ShellLine.Grammar.Chain
import ShellLine.Token.Cursor

/-!
# Reading programs

A program is read from all tokens of an input, one sequence after another. A
failure is placed at the token where it arose, or at the end of the input.
-/

namespace ShellLine

namespace Grammar

/-- The sequences up to the end of the tokens. -/
def nodes (tokens : List Token) : Except Failure (List Node) :=
  match _h : sequence.read tokens with
  | .error failure => .error failure
  | .ok none => .ok []
  | .ok (some (node, rest)) => (nodes rest).map (node :: ·)
termination_by tokens.length
decreasing_by exact sequence.length_rest_lt _h

end Grammar

/-- The error that shows a failure to read the tokens of a text. -/
def Grammar.Failure.locate (failure : Failure) (text : String) : ParseError :=
  let token := failure.rest.headD (endOfInput text)
  ⟨failure.cause, token.position, Text.sourceLine text token.position.line⟩

/-- The program that a text says. -/
def parse (text : String) : Except ParseError Program :=
  match Grammar.nodes (tokenize text) with
  | .ok nodes => .ok ⟨nodes⟩
  | .error failure => .error (failure.locate text)

end ShellLine
