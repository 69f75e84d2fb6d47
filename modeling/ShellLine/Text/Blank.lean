import ShellLine.Text.CodePoints

/-!
# Blank characters

The blank characters are those with the Unicode property White_Space. A text is
blank when it holds nothing else.
-/

namespace ShellLine.Text

/-- The blank code points: tab to carriage return, the space, and the spaces outside ASCII. -/
def blankRanges : CodePoints :=
  [(0x9, 0xD), (0x20, 0x20), (0x85, 0x85), (0xA0, 0xA0), (0x1680, 0x1680), (0x2000, 0x200A),
   (0x2028, 0x2029), (0x202F, 0x202F), (0x205F, 0x205F), (0x3000, 0x3000)]

theorem ascending_blankRanges : Ascending blankRanges := by decide

/-- Whether a character only separates. -/
def isBlank (c : Char) : Bool :=
  inRanges blankRanges c.toNat

theorem isBlank_iff (c : Char) : isBlank c = true ↔
    ∃ range ∈ blankRanges, range.1 ≤ c.toNat ∧ c.toNat ≤ range.2 :=
  inRanges_iff ascending_blankRanges c.toNat

/-- Whether a text holds blank characters only; the empty text does. -/
def allBlank (text : String) : Bool :=
  text.toList.all isBlank

/-! ## Words between blanks -/

/-- A text cut at every blank character; the pieces may be empty. -/
def cutAtBlanks : List Char → List (List Char)
  | [] => [[]]
  | c :: text =>
    if isBlank c then [] :: cutAtBlanks text
    else
      match cutAtBlanks text with
      | [] => [[c]]
      | piece :: pieces => (c :: piece) :: pieces

/-- The words of a text: its longest pieces without a blank character. -/
def words (text : String) : List String :=
  ((cutAtBlanks text.toList).filter fun piece ↦ !piece.isEmpty).map String.ofList

theorem cutAtBlanks_ne_nil (text : List Char) : cutAtBlanks text ≠ [] := by
  cases text with
  | nil => simp [cutAtBlanks]
  | cons c text =>
    rw [cutAtBlanks]
    split
    · simp
    · split <;> simp

end ShellLine.Text
