import Mathlib.Data.List.GetD
import ShellLine.Proofs.Text.Breaks

/-!
# Lines as pieces of a text

A text is cut at all of its line breaks in one way only. The numbered lines of the text
are the pieces between the breaks, and past the last piece every line is empty. A text
with a line feed and another text behind it has the pieces of both, one after the other.

Only a carriage return in front of that line feed would make one break with it, so such
texts are left out.
-/

namespace ShellLine.Text

/-! ## Cut texts -/

/-- What can break a line. -/
inductive LineBreak where
  | lineFeed
  | carriageReturn
  | both
  deriving DecidableEq

def LineBreak.chars : LineBreak → List Char
  | .lineFeed => ['\n']
  | .carriageReturn => ['\r']
  | .both => ['\r', '\n']

/-- A text cut up: lines with the break behind each, and a last line, which has none. -/
inductive Lines where
  | last (line : List Char)
  | broken (line : List Char) (lineBreak : LineBreak) (below : Lines)
  deriving DecidableEq

namespace Lines

/-- The text that is cut up. -/
def text : Lines → List Char
  | .last line => line
  | .broken line lineBreak below => line ++ (lineBreak.chars ++ below.text)

/-- The lines in order, without the breaks. -/
def pieces : Lines → List (List Char)
  | .last line => [line]
  | .broken line _ below => line :: below.pieces

/-- No line holds a break, and no break of two characters is taken for one of a single one. -/
def WellCut : Lines → Prop
  | .last line => ∀ c ∈ line, isLineBreak c = false
  | .broken line lineBreak below => (∀ c ∈ line, isLineBreak c = false) ∧
      (lineBreak = .carriageReturn → below.text.head? ≠ some '\n') ∧ below.WellCut

/-- One more character in front of the first line. -/
def prepend (c : Char) : Lines → Lines
  | .last line => .last (c :: line)
  | .broken line lineBreak below => .broken (c :: line) lineBreak below

/-- A line feed behind the last line, and other lines below it. -/
def above (lines : Lines) (others : Lines) : Lines :=
  match lines with
  | .last line => .broken line .lineFeed others
  | .broken line lineBreak below => .broken line lineBreak (below.above others)

@[simp] theorem text_prepend (c : Char) (lines : Lines) :
    (lines.prepend c).text = c :: lines.text := by
  cases lines <;> rfl

theorem WellCut.prepend {lines : Lines} {c : Char} (h : lines.WellCut)
    (hc : isLineBreak c = false) : (lines.prepend c).WellCut := by
  cases lines with
  | last line => exact List.forall_mem_cons.2 ⟨hc, h⟩
  | broken line lineBreak below => exact ⟨List.forall_mem_cons.2 ⟨hc, h.1⟩, h.2⟩

@[simp] theorem text_above (lines others : Lines) :
    (lines.above others).text = lines.text ++ '\n' :: others.text := by
  induction lines with
  | last line => rfl
  | broken line lineBreak below ih =>
    rw [above, text, text, ih, List.append_assoc, List.append_assoc]

@[simp] theorem pieces_above (lines others : Lines) :
    (lines.above others).pieces = lines.pieces ++ others.pieces := by
  induction lines with
  | last line => rfl
  | broken line lineBreak below ih => rw [above, pieces, pieces, ih, List.cons_append]

/-- Only a carriage return at the end would take the line feed for its own. -/
theorem WellCut.above {lines others : Lines} (h : lines.WellCut) (hothers : others.WellCut)
    (hlast : lines.text.getLast? ≠ some '\r') : (lines.above others).WellCut := by
  induction lines with
  | last line => exact ⟨h, nofun, hothers⟩
  | broken line lineBreak below ih =>
    obtain ⟨hline, halone, hbelow⟩ := h
    have hsuffix : below.text <:+ (broken line lineBreak below).text :=
      (List.suffix_append _ _).trans (List.suffix_append _ _)
    refine ⟨hline, ?_, ih hbelow fun hreturn ↦ hlast (mem_getLast?_of_suffix hsuffix hreturn)⟩
    rintro rfl
    rw [text_above]
    cases htext : below.text with
    | nil =>
      refine absurd ?_ hlast
      rw [text, htext, List.append_nil]
      exact List.getLast?_concat
    | cons c rest =>
      rw [htext] at halone
      exact halone rfl

end Lines

/-! ## Cutting a text -/

/-- A text cut at every line break. -/
def cutLines : List Char → Lines
  | [] => .last []
  | '\r' :: '\n' :: rest => .broken [] .both (cutLines rest)
  | c :: rest =>
    if c = '\n' then .broken [] .lineFeed (cutLines rest)
    else if c = '\r' then .broken [] .carriageReturn (cutLines rest)
    else (cutLines rest).prepend c

@[simp] theorem text_cutLines (text : List Char) : (cutLines text).text = text := by
  fun_induction cutLines text with
  | case1 => rfl
  | case2 rest ih =>
    rw [Lines.text, ih]
    rfl
  | case3 rest _ ih =>
    rw [Lines.text, ih]
    rfl
  | case4 rest _ _ ih =>
    rw [Lines.text, ih]
    rfl
  | case5 c rest _ _ _ ih => rw [Lines.text_prepend, ih]

theorem wellCut_cutLines (text : List Char) : (cutLines text).WellCut := by
  fun_induction cutLines text with
  | case1 => exact List.forall_mem_nil _
  | case2 rest ih => exact ⟨List.forall_mem_nil _, nofun, ih⟩
  | case3 rest _ ih => exact ⟨List.forall_mem_nil _, nofun, ih⟩
  | case4 rest halone _ ih =>
    refine ⟨List.forall_mem_nil _, fun _ hfeed ↦ ?_, ih⟩
    rw [text_cutLines] at hfeed
    obtain ⟨more, rfl⟩ := List.head?_eq_some_iff.1 hfeed
    exact halone more rfl rfl
  | case5 c rest _ hfeed hreturn ih =>
    apply ih.prepend
    simp [isLineBreak, hfeed, hreturn]

/-! ## Finding a line -/

theorem LineBreak.chars_injective {a b : LineBreak} (h : a.chars = b.chars) : a = b := by
  cases a <;> cases b <;> first | rfl | cases h

theorem firstLine_lineBreak (lineBreak : LineBreak) (rest : List Char) :
    firstLine (lineBreak.chars ++ rest) = [] := by
  cases lineBreak <;> rfl

theorem afterLine?_lineBreak {lineBreak : LineBreak} {rest : List Char}
    (h : lineBreak = .carriageReturn → rest.head? ≠ some '\n') :
    afterLine? (lineBreak.chars ++ rest) = some rest := by
  cases lineBreak with
  | lineFeed => rfl
  | both => rfl
  | carriageReturn =>
    apply afterLine?_of_isLineBreak (by decide)
    rintro more - rfl
    exact h rfl rfl

namespace Lines

theorem firstLine_last {line : List Char} (h : (last line).WellCut) :
    firstLine (last line).text = line := by
  have hline := firstLine_of_unbroken h []
  rw [List.append_nil] at hline
  rw [text, hline]
  exact List.append_nil line

theorem afterLine?_last {line : List Char} (h : (last line).WellCut) :
    afterLine? (last line).text = none := by
  have hline := afterLine?_of_unbroken h []
  rw [List.append_nil] at hline
  exact hline

variable {line : List Char} {lineBreak : LineBreak} {below : Lines}

theorem firstLine_broken (h : (broken line lineBreak below).WellCut) :
    firstLine (broken line lineBreak below).text = line := by
  rw [text, firstLine_of_unbroken h.1, firstLine_lineBreak, List.append_nil]

theorem afterLine?_broken (h : (broken line lineBreak below).WellCut) :
    afterLine? (broken line lineBreak below).text = some below.text := by
  rw [text, afterLine?_of_unbroken h.1, afterLine?_lineBreak h.2.1]

/-- Passing some lines leads to the piece with as many pieces in front of it. -/
theorem lineAfter_text {lines : Lines} (h : lines.WellCut) (n : Nat) :
    lineAfter n lines.text = lines.pieces.getD n [] := by
  induction lines generalizing n with
  | last line =>
    cases n with
    | zero => exact firstLine_last h
    | succ n =>
      rw [lineAfter, afterLine?_last h]
      rfl
  | broken line lineBreak below ih =>
    cases n with
    | zero => exact firstLine_broken h
    | succ n =>
      rw [lineAfter, afterLine?_broken h]
      exact ih h.2.2 n

/-- The line breaks of a text leave no choice where to cut it. -/
theorem eq_of_text_eq {a b : Lines} (ha : a.WellCut) (hb : b.WellCut) (h : a.text = b.text) :
    a = b := by
  induction a generalizing b with
  | last line =>
    cases b with
    | last line' =>
      have hline : line = line' := h
      rw [hline]
    | broken line' lineBreak' below' =>
      have hafter := afterLine?_broken hb
      rw [← h, afterLine?_last ha] at hafter
      cases hafter
  | broken line lineBreak below ih =>
    have hfirst := firstLine_broken ha
    have hafter := afterLine?_broken ha
    rw [h] at hfirst hafter
    cases b with
    | last line' =>
      rw [afterLine?_last hb] at hafter
      cases hafter
    | broken line' lineBreak' below' =>
      rw [firstLine_broken hb] at hfirst
      rw [afterLine?_broken hb] at hafter
      have hbelow : below.text = below'.text := (Option.some.inj hafter).symm
      subst hfirst
      rw [text, text, List.append_cancel_left_eq, hbelow, List.append_cancel_right_eq] at h
      rw [LineBreak.chars_injective h, ih ha.2.2 hb.2.2 hbelow]

end Lines

theorem sourceLine_eq_getD {text : String} {lines : Lines} (htext : lines.text = text.toList)
    (hcut : lines.WellCut) (n : Nat) :
    sourceLine text n = String.ofList (lines.pieces.getD (n - 1) []) := by
  rw [sourceLine, ← htext, Lines.lineAfter_text hcut]

/-- The lines of a text are the pieces of its one cut at all breaks, and hold no break. If the text
does not end in a carriage return, a line feed puts the lines of any other text below its own. -/
theorem sourceLine_numbers_pieces (text : String) :
    ((cutLines text.toList).text = text.toList ∧ (cutLines text.toList).WellCut ∧
        ∀ lines : Lines, lines.text = text.toList → lines.WellCut →
          lines = cutLines text.toList) ∧
      (∀ n, 1 ≤ n →
        sourceLine text n = String.ofList ((cutLines text.toList).pieces.getD (n - 1) [])) ∧
      sourceLine text 0 = sourceLine text 1 ∧
      (∀ n, '\n' ∉ (sourceLine text n).toList ∧ '\r' ∉ (sourceLine text n).toList) ∧
      (text.toList.getLast? ≠ some '\r' → ∀ other : String,
        (∀ n, 1 ≤ n → n ≤ (cutLines text.toList).pieces.length →
          sourceLine (text ++ "\n" ++ other) n = sourceLine text n) ∧
        ∀ k, 1 ≤ k → sourceLine (text ++ "\n" ++ other)
          ((cutLines text.toList).pieces.length + k) = sourceLine other k) := by
  have hcut := wellCut_cutLines text.toList
  refine ⟨⟨text_cutLines _, hcut, fun lines hlines hwell ↦ ?_⟩, fun n _ ↦ ?_, rfl, fun n ↦ ?_,
    fun hlast other ↦ ?_⟩
  · exact Lines.eq_of_text_eq hwell hcut (hlines.trans (text_cutLines _).symm)
  · exact sourceLine_eq_getD (text_cutLines _) hcut n
  · rw [toList_sourceLine]
    constructor
    · exact fun hfeed ↦ absurd (not_isLineBreak_of_mem_lineAfter hfeed) (by decide)
    · exact fun hreturn ↦ absurd (not_isLineBreak_of_mem_lineAfter hreturn) (by decide)
  · have hjoined : ((cutLines text.toList).above (cutLines other.toList)).text =
        (text ++ "\n" ++ other).toList := by
      simp
    have habove : ((cutLines text.toList).above (cutLines other.toList)).WellCut := by
      apply hcut.above (wellCut_cutLines other.toList)
      rw [text_cutLines]
      exact hlast
    have hlines := sourceLine_eq_getD hjoined habove
    rw [Lines.pieces_above] at hlines
    refine ⟨fun n hpos hle ↦ ?_, fun k hpos ↦ ?_⟩
    · rw [hlines, List.getD_append _ _ _ _ (by omega), sourceLine_eq_getD (text_cutLines _) hcut]
    · rw [hlines, List.getD_append_right _ _ _ _ (by omega),
        sourceLine_eq_getD (text_cutLines _) (wellCut_cutLines other.toList),
        Nat.add_sub_assoc hpos, Nat.add_sub_cancel_left]

theorem sourceLine_numbers_pieces_of_mixed_breaks :
    (cutLines "a\r\r\nb\n\rc".toList).pieces = [['a'], [], ['b'], [], ['c']] ∧
      "a\r\r\nb\n\rc".toList.getLast? ≠ some '\r' ∧
      sourceLine "a\r\r\nb\n\rc" 3 = "b" ∧ sourceLine "a\r\r\nb\n\rc" 6 = "" ∧
      sourceLine ("a\r\r\nb\n\rc" ++ "\n" ++ "\nd\r") 5 = sourceLine "a\r\r\nb\n\rc" 5 ∧
      sourceLine ("a\r\r\nb\n\rc" ++ "\n" ++ "\nd\r") (5 + 2) = sourceLine "\nd\r" 2 := by
  have hpieces : (cutLines "a\r\r\nb\n\rc".toList).pieces = [['a'], [], ['b'], [], ['c']] := by
    decide
  have hlast : "a\r\r\nb\n\rc".toList.getLast? ≠ some '\r' := by decide
  obtain ⟨-, hnumbered, -, -, hbelow⟩ := sourceLine_numbers_pieces "a\r\r\nb\n\rc"
  rw [hpieces] at hnumbered hbelow
  obtain ⟨hown, hother⟩ := hbelow hlast "\nd\r"
  exact ⟨hpieces, hlast, hnumbered 3 (by decide), hnumbered 6 (by decide),
    hown 5 (by decide) (by decide), hother 2 (by decide)⟩

end ShellLine.Text
