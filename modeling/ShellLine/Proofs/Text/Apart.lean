import ShellLine.Text.Alphanumeric
import ShellLine.Text.Blank
import ShellLine.Text.Line

/-!
# Classes of characters that do not meet

A blank character never continues a word and is no digit, and a line break is
always blank. The two Unicode tables are compared range by range: no range of
one meets a range of the other.
-/

namespace ShellLine.Text

/-- No code point lies in a range of both sets. -/
def Apart (a b : CodePoints) : Prop :=
  ∀ left ∈ a, ∀ right ∈ b, left.2 < right.1 ∨ right.2 < left.1

instance decidableApart (a b : CodePoints) : Decidable (Apart a b) :=
  inferInstanceAs (Decidable (∀ left ∈ a, ∀ right ∈ b, left.2 < right.1 ∨ right.2 < left.1))

theorem apart_blankRanges_alphanumericRanges : Apart blankRanges alphanumericRanges := by
  decide +kernel

theorem isAlphanumeric_eq_false_of_isBlank {c : Char} (h : isBlank c = true) :
    isAlphanumeric c = false := by
  obtain ⟨left, hleft, hlow, hhigh⟩ := (isBlank_iff c).1 h
  rw [Bool.eq_false_iff]
  intro halpha
  obtain ⟨right, hright, hlow', hhigh'⟩ := (isAlphanumeric_iff c).1 halpha
  have happart := apart_blankRanges_alphanumericRanges left hleft right hright
  omega

theorem isWordChar_eq_false_of_isBlank {c : Char} (h : isBlank c = true) :
    isWordChar c = false := by
  have hline : c ≠ '_' := by
    rintro rfl
    exact absurd h (by decide)
  simp [isWordChar, isAlphanumeric_eq_false_of_isBlank h, hline]

theorem isAlphanumeric_of_isDigit {c : Char} (h : c.isDigit = true) : isAlphanumeric c = true := by
  refine (isAlphanumeric_iff c).2 ⟨(0x30, 0x39), by decide, ?_⟩
  simpa [Char.isDigit, UInt32.le_iff_toNat_le] using h

theorem isWordChar_of_isDigit {c : Char} (h : c.isDigit = true) : isWordChar c = true := by
  rw [isWordChar, isAlphanumeric_of_isDigit h, Bool.true_or]

theorem isDigit_eq_false_of_isBlank {c : Char} (h : isBlank c = true) : c.isDigit = false := by
  rw [Bool.eq_false_iff]
  intro hdigit
  have halpha := isAlphanumeric_of_isDigit hdigit
  rw [isAlphanumeric_eq_false_of_isBlank h] at halpha
  exact absurd halpha (by decide)

theorem isBlank_of_isLineBreak {c : Char} (h : isLineBreak c = true) : isBlank c = true := by
  simp only [isLineBreak, Bool.or_eq_true, beq_iff_eq] at h
  rcases h with rfl | rfl <;> decide

theorem isLineBreak_eq_false_of_not_isBlank {c : Char} (h : isBlank c = false) :
    isLineBreak c = false := by
  rw [Bool.eq_false_iff]
  intro hbreak
  rw [isBlank_of_isLineBreak hbreak] at h
  exact absurd h (by decide)

end ShellLine.Text
