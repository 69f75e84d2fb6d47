import ShellLine.Text.Blank
import ShellLine.Text.Line
import ShellLine.Token.Lexeme

/-!
# Reading tokens

A cursor stands in a text. It moves over blank characters without making a
token of them, keeping the line and the column, and then over one lexeme at a
time. At the end of the text it stays, however often it is asked.
-/

namespace ShellLine

open Text

/-- The text still ahead, and the place at which it begins. -/
structure Cursor where
  rest : List Char
  position : Position
  deriving DecidableEq

namespace Cursor

/-- The cursor in front of a text. -/
def ofText (text : String) : Cursor := ⟨text.toList, .start⟩

/-- The cursor behind the blank characters at the front of a text. -/
def afterBlanks : List Char → Position → Cursor
  | [], position => ⟨[], position⟩
  | '\r' :: '\n' :: rest, position => afterBlanks rest position.nextLine
  | c :: rest, position =>
    if isLineBreak c then afterBlanks rest position.nextLine
    else if isBlank c then afterBlanks rest (position.advance 1)
    else ⟨c :: rest, position⟩

def skipBlanks (cursor : Cursor) : Cursor :=
  afterBlanks cursor.rest cursor.position

theorem length_afterBlanks_le (text : List Char) (position : Position) :
    (afterBlanks text position).rest.length ≤ text.length := by
  fun_induction afterBlanks text position <;> simp_all <;> omega

theorem length_skipBlanks_le (cursor : Cursor) :
    cursor.skipBlanks.rest.length ≤ cursor.rest.length :=
  length_afterBlanks_le cursor.rest cursor.position

/-- The next token and the cursor behind it, or nothing when only blank characters are left. -/
def next? (cursor : Cursor) : Option (Token × Cursor) :=
  match cursor.skipBlanks with
  | ⟨[], _⟩ => none
  | ⟨c :: cs, position⟩ =>
    let lexeme := Lexeme.ofChars c cs
    some (⟨lexeme.kind, String.ofList lexeme.chars, position⟩,
      ⟨lexeme.rest, position.advance lexeme.chars.length⟩)

/-- Every token leaves less text ahead. -/
theorem length_rest_lt_of_next? {cursor after : Cursor} {token : Token}
    (h : cursor.next? = some (token, after)) : after.rest.length < cursor.rest.length := by
  have skipped := length_skipBlanks_le cursor
  unfold next? at h
  split at h
  · cases h
  · next c cs position start =>
    cases h
    rw [start] at skipped
    exact Nat.lt_of_lt_of_le (Lexeme.length_rest_lt c cs) skipped

/-- All tokens ahead, and the cursor at the end of the text. -/
def drain (cursor : Cursor) : List Token × Cursor :=
  match _h : cursor.next? with
  | none => ([], cursor.skipBlanks)
  | some (token, after) =>
    let (tokens, stop) := after.drain
    (token :: tokens, stop)
termination_by cursor.rest.length
decreasing_by exact length_rest_lt_of_next? _h

/-- The token that stands for the end of the input where a cursor is. -/
def endToken (cursor : Cursor) : Token := ⟨.eof, "", cursor.position⟩

/-- The next token, which at the end of the text is the end of the input. -/
def nextToken (cursor : Cursor) : Token × Cursor :=
  match cursor.next? with
  | some step => step
  | none => (cursor.skipBlanks.endToken, cursor.skipBlanks)

theorem drain_of_next?_eq_none {cursor : Cursor} (h : cursor.next? = none) :
    cursor.drain = ([], cursor.skipBlanks) := by
  rw [drain]
  split
  · rfl
  · next h' => rw [h] at h'; cases h'

theorem drain_of_next?_eq_some {cursor after : Cursor} {token : Token}
    (h : cursor.next? = some (token, after)) :
    cursor.drain = (token :: after.drain.1, after.drain.2) := by
  rw [drain]
  split
  · next h' => rw [h] at h'; cases h'
  · next h' => rw [h] at h'; cases h'; rfl

end Cursor

/-- The tokens of a text, without the end of the input. -/
def tokenize (text : String) : List Token :=
  (Cursor.ofText text).drain.1

/-- The end of the input of a text, placed behind its last blank character. -/
def endOfInput (text : String) : Token :=
  (Cursor.ofText text).drain.2.endToken

end ShellLine
