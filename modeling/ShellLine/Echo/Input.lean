import ShellLine.Text.Blank

/-!
# Lines of the input

The input is read as bytes, and a line feed ends a line. A carriage return in
front of the line feed belongs to it. Each line is UTF-8 by itself, so bytes
that are not spoil no line before them.
-/

namespace ShellLine.Echo

/-- The bytes of a line, and whether a line feed ended it. -/
structure RawLine where
  bytes : List UInt8
  terminated : Bool
  deriving DecidableEq

def lineFeed : UInt8 := 10

/-- The lines of an input. Bytes behind the last line feed are a line, if there are any. -/
def rawLines (input : List UInt8) : List RawLine :=
  match input with
  | [] => []
  | first :: others =>
    let line := (first :: others).takeWhile (· != lineFeed)
    match _h : (first :: others).dropWhile (· != lineFeed) with
    | [] => [⟨line, false⟩]
    | _ :: rest => ⟨line, true⟩ :: rawLines rest
termination_by input.length
decreasing_by
  have suffix := (List.dropWhile_suffix (l := first :: others) (· != lineFeed)).length_le
  rw [_h] at suffix
  exact suffix

/-- A text without the carriage return at its end, if there is one. -/
def dropCarriageReturn (text : String) : String :=
  match text.toList.getLast? with
  | some '\r' => String.ofList text.toList.dropLast
  | _ => text

/-- The text of a line, unless its bytes are no UTF-8. -/
def RawLine.text? (line : RawLine) : Option String :=
  (String.fromUTF8? ⟨line.bytes.toArray⟩).map fun text ↦
    if line.terminated then dropCarriageReturn text else text

end ShellLine.Echo
