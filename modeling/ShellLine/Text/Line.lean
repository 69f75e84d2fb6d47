/-!
# Lines of a text

A line feed breaks a line, and so does a carriage return; a carriage return
directly before a line feed makes one break with it. Lines are numbered from 1,
and the last line is what follows the last break, which may be nothing.
-/

namespace ShellLine.Text

/-- Whether a character breaks a line. -/
def isLineBreak (c : Char) : Bool :=
  c == '\n' || c == '\r'

/-- The text in front of the first line break. -/
def firstLine (text : List Char) : List Char :=
  text.takeWhile fun c ↦ !isLineBreak c

/-- The text behind the first line break, if there is a break. -/
def afterLine? : List Char → Option (List Char)
  | [] => none
  | '\r' :: '\n' :: rest => some rest
  | c :: rest => if isLineBreak c then some rest else afterLine? rest

/-- The line with a given number of lines in front of it; a line past the last one is empty. -/
def lineAfter : Nat → List Char → List Char
  | 0, text => firstLine text
  | n + 1, text =>
    match afterLine? text with
    | none => []
    | some rest => lineAfter n rest

/-- The line of a text with a given number; number 0 stands for the first line. -/
def sourceLine (text : String) (line : Nat) : String :=
  String.ofList (lineAfter (line - 1) text.toList)

@[simp] theorem sourceLine_zero (text : String) : sourceLine text 0 = sourceLine text 1 := rfl

theorem toList_sourceLine (text : String) (line : Nat) :
    (sourceLine text line).toList = lineAfter (line - 1) text.toList := by
  simp [sourceLine]

theorem not_isLineBreak_of_mem_firstLine {text : List Char} {c : Char} (h : c ∈ firstLine text) :
    isLineBreak c = false := by
  induction text with
  | nil => simp [firstLine] at h
  | cons d text ih =>
    rw [firstLine, List.takeWhile_cons] at h
    split at h
    · rcases List.mem_cons.1 h with rfl | h
      · simp_all
      · exact ih h
    · simp at h

/-- No line holds a line break. -/
theorem not_isLineBreak_of_mem_lineAfter {n : Nat} {text : List Char} {c : Char}
    (h : c ∈ lineAfter n text) : isLineBreak c = false := by
  induction n generalizing text with
  | zero => exact not_isLineBreak_of_mem_firstLine h
  | succ n ih =>
    rw [lineAfter] at h
    split at h
    · simp at h
    · exact ih h

end ShellLine.Text
