import Mathlib.Data.List.DropRight
import ShellLine.Text.Line

/-!
# Passing line breaks

A line is found by passing the breaks in front of it. Characters that are no
breaks do not change which break comes next, and it makes no difference whether
one break more is passed at the front or at the end.

The breaks of a text are counted in the same way. Two texts can be counted one after
the other unless a break of two characters is split between them, and to pass as many
breaks as a text has, and the line feed behind it, is to pass the text. What stands
behind the last break is the last line, which is found from the end.
-/

namespace ShellLine.Text

theorem afterLine?_of_unbroken {front : List Char} (h : ∀ c ∈ front, isLineBreak c = false)
    (rest : List Char) : afterLine? (front ++ rest) = afterLine? rest := by
  induction front with
  | nil => rfl
  | cons c front ih =>
    obtain ⟨hc, hfront⟩ := List.forall_mem_cons.1 h
    have hreturn : c ≠ '\r' := by
      rintro rfl
      exact absurd hc (by decide)
    rw [List.cons_append, afterLine?.eq_3]
    · rw [hc, if_neg Bool.false_ne_true, ih hfront]
    · exact fun more hcr _ ↦ hreturn hcr

/-- A break of one character; a line feed behind a carriage return would belong to the break. -/
theorem afterLine?_of_isLineBreak {c : Char} {rest : List Char} (hc : isLineBreak c = true)
    (halone : ∀ more, c = '\r' → rest = '\n' :: more → False) :
    afterLine? (c :: rest) = some rest := by
  rw [afterLine?.eq_3 c rest halone, if_pos hc]

theorem firstLine_of_unbroken {front : List Char} (h : ∀ c ∈ front, isLineBreak c = false)
    (rest : List Char) : firstLine (front ++ rest) = front ++ firstLine rest := by
  apply List.takeWhile_append_of_pos
  intro c hc
  rw [h c hc]
  rfl

/-- The text behind a number of line breaks, if there are as many. -/
def behindBreaks? : Nat → List Char → Option (List Char)
  | 0, text => some text
  | n + 1, text => (afterLine? text).bind (behindBreaks? n)

theorem behindBreaks?_succ (n : Nat) (text : List Char) :
    behindBreaks? (n + 1) text = (behindBreaks? n text).bind afterLine? := by
  induction n generalizing text with
  | zero => cases h : afterLine? text <;> simp [behindBreaks?, h]
  | succ n ih =>
    cases h : afterLine? text with
    | none => simp [behindBreaks?, h]
    | some rest =>
      rw [behindBreaks?, h, Option.bind_some, ih, behindBreaks?, h, Option.bind_some]

theorem lineAfter_of_behindBreaks? {n : Nat} {text rest : List Char}
    (h : behindBreaks? n text = some rest) : lineAfter n text = firstLine rest := by
  induction n generalizing text with
  | zero =>
    cases h
    rfl
  | succ n ih =>
    obtain ⟨behind, hbehind, hrest⟩ := Option.bind_eq_some_iff.1 h
    rw [lineAfter, hbehind]
    exact ih hrest

theorem lineAfter_add {n : Nat} {text rest : List Char} (h : behindBreaks? n text = some rest)
    (m : Nat) : lineAfter (n + m) text = lineAfter m rest := by
  induction n generalizing text with
  | zero =>
    cases h
    rw [Nat.zero_add]
  | succ n ih =>
    obtain ⟨behind, hbehind, hrest⟩ := Option.bind_eq_some_iff.1 h
    rw [Nat.succ_add, lineAfter, hbehind]
    exact ih hrest

/-! ## Counting line breaks -/

/-- The number of line breaks in a text. -/
def lineBreaks : List Char → Nat
  | [] => 0
  | '\r' :: '\n' :: rest => lineBreaks rest + 1
  | c :: rest => if isLineBreak c then lineBreaks rest + 1 else lineBreaks rest

theorem lineBreaks_append_of_unbroken {front : List Char}
    (h : ∀ c ∈ front, isLineBreak c = false) (rest : List Char) :
    lineBreaks (front ++ rest) = lineBreaks rest := by
  induction front with
  | nil => rfl
  | cons c front ih =>
    obtain ⟨hc, hfront⟩ := List.forall_mem_cons.1 h
    have hreturn : c ≠ '\r' := by
      rintro rfl
      exact absurd hc (by decide)
    rw [List.cons_append, lineBreaks.eq_3]
    · rw [hc, if_neg Bool.false_ne_true, ih hfront]
    · exact fun more hcr _ ↦ hreturn hcr

theorem lineBreaks_le_length (text : List Char) : lineBreaks text ≤ text.length := by
  fun_induction lineBreaks text with
  | case1 => exact Nat.le_refl 0
  | case2 rest ih =>
    simp only [List.length_cons]
    omega
  | case3 c rest _ _ ih => exact Nat.succ_le_succ ih
  | case4 c rest _ _ ih => exact Nat.le_succ_of_le ih

/-- Two texts meet in the middle of a break of two characters. -/
def SplitsBreak (front behind : List Char) : Prop :=
  front.getLast? = some '\r' ∧ behind.head? = some '\n'

theorem mem_getLast?_of_suffix {c : Char} {text rest : List Char} (h : rest <:+ text)
    (hc : c ∈ rest.getLast?) : c ∈ text.getLast? := by
  obtain ⟨front, rfl⟩ := h
  rw [List.getLast?_append, Option.mem_def.1 hc]
  rfl

theorem not_splitsBreak_of_suffix {front rest behind : List Char} (h : ¬ SplitsBreak front behind)
    (hrest : rest <:+ front) : ¬ SplitsBreak rest behind :=
  fun hsplit ↦ h ⟨mem_getLast?_of_suffix hrest hsplit.1, hsplit.2⟩

/-- A character that is a break of its own is one in front of more text, too. -/
theorem alone_append {c : Char} {front behind : List Char}
    (h : front = [] → ¬ SplitsBreak [c] behind)
    (halone : ∀ more, c = '\r' → front = '\n' :: more → False) :
    ∀ more, c = '\r' → front ++ behind = '\n' :: more → False := by
  rintro more rfl hfeed
  cases front with
  | nil => exact h rfl ⟨rfl, congrArg List.head? hfeed⟩
  | cons d front =>
    obtain rfl := (List.cons.inj hfeed).1
    exact halone front rfl rfl

/-- The breaks of two texts are counted one text after the other. -/
theorem lineBreaks_append {front behind : List Char} (h : ¬ SplitsBreak front behind) :
    lineBreaks (front ++ behind) = lineBreaks front + lineBreaks behind := by
  fun_induction lineBreaks front with
  | case1 => exact (Nat.zero_add _).symm
  | case2 front ih =>
    have hfront := ih (not_splitsBreak_of_suffix h ⟨['\r', '\n'], rfl⟩)
    rw [List.cons_append, List.cons_append, lineBreaks, hfront, Nat.add_right_comm]
  | case3 c front halone hbreak ih =>
    have hfront := ih (not_splitsBreak_of_suffix h (List.suffix_cons c front))
    rw [List.cons_append, lineBreaks.eq_3 _ _ (alone_append (· ▸ h) halone), if_pos hbreak, hfront,
      Nat.add_right_comm]
  | case4 c front halone hbreak ih =>
    have hfront := ih (not_splitsBreak_of_suffix h (List.suffix_cons c front))
    rw [List.cons_append, lineBreaks.eq_3 _ _ (alone_append (· ▸ h) halone), if_neg hbreak, hfront]

/-- A line feed ends the last line of the text in front of it. -/
theorem behindBreaks?_append_newline {front rest : List Char}
    (h : ¬ SplitsBreak front ('\n' :: rest)) :
    behindBreaks? (lineBreaks front + 1) (front ++ '\n' :: rest) = some rest := by
  fun_induction lineBreaks front with
  | case1 => rfl
  | case2 front ih => exact ih (not_splitsBreak_of_suffix h ⟨['\r', '\n'], rfl⟩)
  | case3 c front halone hbreak ih =>
    rw [behindBreaks?, List.cons_append,
      afterLine?_of_isLineBreak hbreak (alone_append (· ▸ h) halone)]
    exact ih (not_splitsBreak_of_suffix h (List.suffix_cons c front))
  | case4 c front halone hbreak ih =>
    have hunbroken : ∀ d ∈ [c], isLineBreak d = false :=
      List.forall_mem_singleton.2 (Bool.eq_false_iff.2 hbreak)
    have hpassed := afterLine?_of_unbroken hunbroken (front ++ '\n' :: rest)
    rw [behindBreaks?, List.cons_append, ← List.singleton_append, hpassed]
    exact ih (not_splitsBreak_of_suffix h (List.suffix_cons c front))

/-! ## The last line -/

/-- The text behind the last line break. -/
def lastLine (text : List Char) : List Char :=
  text.rtakeWhile fun c ↦ !isLineBreak c

theorem length_lastLine_le (text : List Char) : (lastLine text).length ≤ text.length :=
  (List.rtakeWhile_suffix _ text).length_le

theorem lastLine_concat_of_not_isLineBreak {c : Char} (h : isLineBreak c = false)
    (front : List Char) : lastLine (front ++ [c]) = lastLine front ++ [c] := by
  have hkept : (!isLineBreak c) = true := by
    rw [h]
    rfl
  exact List.rtakeWhile_concat_pos _ _ _ hkept

theorem lastLine_concat_of_isLineBreak {c : Char} (h : isLineBreak c = true)
    (front : List Char) : lastLine (front ++ [c]) = [] := by
  have hstops : ¬ (!isLineBreak c) = true := by
    rw [h]
    exact Bool.false_ne_true
  exact List.rtakeWhile_concat_neg _ _ _ hstops

end ShellLine.Text
