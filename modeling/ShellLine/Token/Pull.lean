import ShellLine.Token.Cursor

/-!
# Pulling tokens

One cursor serves several ways of asking for tokens, in any order. Each way sees
what the ones before it have left.
-/

namespace ShellLine

/-- A way of asking a cursor for tokens. -/
inductive Pull where
  | token
  | next
  | count
  | all
  deriving DecidableEq

/-- What a cursor answers. -/
inductive Pulled where
  | token (token : Token)
  | next (token : Option Token)
  | count (tokens : Nat)
  | all (tokens : List Token)
  deriving DecidableEq

namespace Cursor

/-- One answer, and the cursor behind the tokens it took. Counting takes all tokens it counts. -/
def pull (cursor : Cursor) : Pull → Pulled × Cursor
  | .token => (.token cursor.nextToken.1, cursor.nextToken.2)
  | .next =>
    match cursor.next? with
    | some (token, after) => (.next (some token), after)
    | none => (.next none, cursor.skipBlanks)
  | .count => (.count cursor.drain.1.length, cursor.drain.2)
  | .all => (.all cursor.drain.1, cursor.drain.2)

/-- The answers to a run of pulls. -/
def pulls (cursor : Cursor) : List Pull → List Pulled
  | [] => []
  | pull :: rest =>
    let (answer, after) := cursor.pull pull
    answer :: after.pulls rest

end Cursor

end ShellLine
