/-!
# Sets of code points

A set is a list of closed ranges in ascending order. A search stops at the
first range that lies above the code point it looks for.
-/

namespace ShellLine.Text

/-- Closed ranges of code points, each above the one before it. -/
abbrev CodePoints := List (Nat × Nat)

/-- Whether a code point lies in one of the ranges. -/
def inRanges : CodePoints → Nat → Bool
  | [], _ => false
  | (low, high) :: above, n => if n < low then false else n ≤ high || inRanges above n

/-- The ranges are not empty, and each begins after the one before it ends. -/
def Ascending : CodePoints → Prop
  | [] => True
  | [(low, high)] => low ≤ high
  | (low, high) :: (low', high') :: above =>
    low ≤ high ∧ high < low' ∧ Ascending ((low', high') :: above)

instance decidableAscending : (ranges : CodePoints) → Decidable (Ascending ranges)
  | [] => inferInstanceAs (Decidable True)
  | [(low, high)] => inferInstanceAs (Decidable (low ≤ high))
  | (low, high) :: (low', high') :: above =>
    have := decidableAscending ((low', high') :: above)
    inferInstanceAs (Decidable (low ≤ high ∧ high < low' ∧ Ascending ((low', high') :: above)))

/-- Every range of an ascending list ends at or after the code point at which the list begins. -/
theorem Ascending.low_le {low high : Nat} {above : CodePoints} (h : Ascending ((low, high) :: above))
    {range : Nat × Nat} (mem : range ∈ (low, high) :: above) : low ≤ range.1 := by
  induction above generalizing low high with
  | nil => simp_all
  | cons next above ih =>
    obtain ⟨low', high'⟩ := next
    obtain ⟨hle, hlt, hrest⟩ := h
    rcases List.mem_cons.1 mem with rfl | mem
    · exact Nat.le_refl _
    · exact Nat.le_trans (by omega) (ih hrest mem)

theorem Ascending.tail {range : Nat × Nat} {above : CodePoints} (h : Ascending (range :: above)) :
    Ascending above := by
  cases above with
  | nil => trivial
  | cons next above => exact h.2.2

/-- Stopping at the first range above the code point loses nothing. -/
theorem inRanges_iff {ranges : CodePoints} (h : Ascending ranges) (n : Nat) :
    inRanges ranges n = true ↔ ∃ range ∈ ranges, range.1 ≤ n ∧ n ≤ range.2 := by
  induction ranges with
  | nil => simp [inRanges]
  | cons range above ih =>
    obtain ⟨low, high⟩ := range
    by_cases hlow : n < low
    · simp only [inRanges, hlow, if_true, Bool.false_eq_true, false_iff]
      rintro ⟨range, mem, hle, -⟩
      have := h.low_le mem
      omega
    · simp only [inRanges, hlow, if_false, Bool.or_eq_true, decide_eq_true_eq, ih h.tail,
        List.mem_cons, exists_eq_or_imp]
      constructor
      · rintro (hhigh | hrest)
        · exact .inl ⟨by omega, hhigh⟩
        · exact .inr hrest
      · rintro (⟨-, hhigh⟩ | hrest)
        · exact .inl hhigh
        · exact .inr hrest

end ShellLine.Text
