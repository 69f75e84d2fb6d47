import ShellLine.Text.Alphanumeric
import ShellLine.Token.Basic

/-!
# Lexemes

The token at the front of a text is the longest operator there; else a digit
directly in front of a redirection; else a run of digits; else one character of
any kind with the word characters behind it. Every text that is not empty begins
with a lexeme, so reading tokens cannot fail.
-/

namespace ShellLine

open Text

/-- A token's kind and characters, and the text behind it. -/
structure Lexeme where
  kind : Token.Kind
  chars : List Char
  rest : List Char
  deriving DecidableEq

namespace Lexeme

/-- The kind of the longest operator at the front of a text, and the text behind it. -/
def operator? : List Char → Option (Token.Kind × List Char)
  | '&' :: '&' :: rest => some (.control (.conditional .and), rest)
  | '&' :: rest => some (.control (.separator .ampersand), rest)
  | '|' :: '|' :: rest => some (.control (.conditional .or), rest)
  | '|' :: rest => some (.control .pipe, rest)
  | ';' :: rest => some (.control (.separator .semicolon), rest)
  | '>' :: '>' :: rest => some (.redirection .append, rest)
  | '>' :: '&' :: rest => some (.redirection .duplicateOutput, rest)
  | '>' :: '|' :: rest => some (.redirection .clobber, rest)
  | '>' :: rest => some (.redirection .write, rest)
  | '<' :: '<' :: '-' :: rest => some (.redirection .hereDocumentStripped, rest)
  | '<' :: '<' :: rest => some (.redirection .hereDocument, rest)
  | '<' :: '&' :: rest => some (.redirection .duplicateInput, rest)
  | '<' :: '>' :: rest => some (.redirection .readWrite, rest)
  | '<' :: rest => some (.redirection .read, rest)
  | _ => none

/-- Whether a text begins with a redirection operator. -/
def startsRedirection : List Char → Bool
  | [] => false
  | c :: _ => c == '<' || c == '>'

/-- A word is reserved when it is spelled as a reserved word. -/
def wordKind (word : List Char) : Token.Kind :=
  match ReservedWord.ofString? (String.ofList word) with
  | some w => .reserved w
  | none => .word

/-- The lexeme at the front of a text that begins with a given character. -/
def ofChars (c : Char) (cs : List Char) : Lexeme :=
  match operator? (c :: cs) with
  | some (kind, rest) => ⟨kind, kind.label.toList, rest⟩
  | none =>
    if c.isDigit then
      if startsRedirection cs then ⟨.ioNumber, [c], cs⟩
      else ⟨.word, c :: cs.takeWhile Char.isDigit, cs.dropWhile Char.isDigit⟩
    else
      let word := c :: cs.takeWhile isWordChar
      ⟨wordKind word, word, cs.dropWhile isWordChar⟩

/-- The longest operator is a piece of the text. -/
theorem eq_append_of_operator? {text rest : List Char} {kind : Token.Kind}
    (h : operator? text = some (kind, rest)) : text = kind.label.toList ++ rest := by
  unfold operator? at h
  split at h <;> cases h <;> rfl

/-- A lexeme and the text behind it make up the text. -/
theorem chars_append_rest (c : Char) (cs : List Char) :
    (ofChars c cs).chars ++ (ofChars c cs).rest = c :: cs := by
  unfold ofChars
  split
  · next h => exact (eq_append_of_operator? h).symm
  · split
    · split <;> simp
    · simp

theorem chars_ne_nil (c : Char) (cs : List Char) : (ofChars c cs).chars ≠ [] := by
  unfold ofChars
  split
  · exact Token.Kind.label_ne_nil _
  · split
    · split <;> simp
    · simp

/-- Behind a lexeme there is less text. -/
theorem length_rest_lt (c : Char) (cs : List Char) :
    (ofChars c cs).rest.length < (c :: cs).length := by
  have whole := congrArg List.length (chars_append_rest c cs)
  have nonempty := List.length_pos_iff.2 (chars_ne_nil c cs)
  rw [List.length_append] at whole
  omega

end Lexeme

end ShellLine
