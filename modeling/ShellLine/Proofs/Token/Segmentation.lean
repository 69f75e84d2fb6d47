import Mathlib.Data.List.Forall2
import ShellLine.Proofs.Token.MaximalMunch
import ShellLine.Token.Cursor

/-!
# Tokens segment their text

Every text is cut in one way only into longest lexemes with runs of blanks
around them. The tokens of a text are these lexemes in order, each with the kind
that it has in its place. Nothing but blanks lies between two tokens.

Where a token stands in lines and columns is not treated here.
-/

namespace ShellLine.Lexicon

open Text

/-- A text cut up: blanks in front of every lexeme, and blanks at the end. -/
inductive Segmentation where
  | last (blanks : List Char)
  | piece (blanks lexeme : List Char) (rest : Segmentation)

namespace Segmentation

/-- The text that is cut up. -/
def text : Segmentation → List Char
  | .last blanks => blanks
  | .piece blanks lexeme rest => blanks ++ (lexeme ++ rest.text)

/-- Only blanks are left between the lexemes, and each lexeme is the longest in its place. -/
def MaximalMunch : Segmentation → Prop
  | .last blanks => ∀ c ∈ blanks, isBlank c = true
  | .piece blanks lexeme rest => (∀ c ∈ blanks, isBlank c = true) ∧
      LongestAt lexeme (lexeme ++ rest.text) ∧ rest.MaximalMunch

/-- The lexemes in order, each with the text behind it. -/
def places : Segmentation → List (List Char × List Char)
  | .last _ => []
  | .piece _ lexeme rest => (lexeme, rest.text) :: rest.places

end Segmentation

/-- A token holds a lexeme, and its kind is the one the lexeme has in front of the text behind. -/
def ReadAt (token : Token) (place : List Char × List Char) : Prop :=
  token.value.toList = place.1 ∧ ∀ kind, HasKind place.1 place.2 kind ↔ kind = token.kind

/-! ## One way to cut -/

theorem span_blanks {blanks lexeme : List Char} (hblanks : ∀ c ∈ blanks, isBlank c = true)
    (hlexeme : IsLexeme lexeme) (behind : List Char) :
    (blanks ++ (lexeme ++ behind)).takeWhile isBlank = blanks ∧
      (blanks ++ (lexeme ++ behind)).dropWhile isBlank = lexeme ++ behind := by
  obtain ⟨c, cs, rfl⟩ := List.exists_cons_of_ne_nil hlexeme.ne_nil
  have hc : ¬ isBlank c = true := by
    rw [hlexeme.isBlank_eq_false c (List.mem_cons_self ..)]
    decide
  constructor
  · rw [List.takeWhile_append_of_pos hblanks, List.cons_append, List.takeWhile_cons_of_neg hc,
      List.append_nil]
  · rw [List.dropWhile_append_of_pos hblanks, List.cons_append, List.dropWhile_cons_of_neg hc]

theorem Segmentation.not_blank_piece {blanks lexeme : List Char} {rest : Segmentation}
    (h : (Segmentation.piece blanks lexeme rest).MaximalMunch) :
    ¬ ∀ c ∈ (Segmentation.piece blanks lexeme rest).text, isBlank c = true := by
  intro hall
  obtain ⟨c, cs, rfl⟩ := List.exists_cons_of_ne_nil h.2.1.ne_nil
  have hblank := hall c (by simp [Segmentation.text])
  rw [h.2.1.isLexeme.isBlank_eq_false c (List.mem_cons_self ..)] at hblank
  exact absurd hblank (by decide)

/-- Longest lexemes and blanks leave no choice where to cut. -/
theorem Segmentation.eq_of_text_eq {s t : Segmentation} (hs : s.MaximalMunch)
    (ht : t.MaximalMunch) (h : s.text = t.text) : s = t := by
  induction s generalizing t with
  | last blanks =>
    cases t with
    | last blanks' =>
      have hblanks : blanks = blanks' := h
      rw [hblanks]
    | piece blanks' lexeme' rest' =>
      have hall : ∀ c ∈ (Segmentation.piece blanks' lexeme' rest').text, isBlank c = true := by
        rw [← h]
        exact hs
      exact absurd hall (not_blank_piece ht)
  | piece blanks lexeme rest ih =>
    cases t with
    | last blanks' =>
      have hall : ∀ c ∈ (Segmentation.piece blanks lexeme rest).text, isBlank c = true := by
        rw [h]
        exact ht
      exact absurd hall (not_blank_piece hs)
    | piece blanks' lexeme' rest' =>
      have hspan := span_blanks hs.1 hs.2.1.isLexeme rest.text
      have hspan' := span_blanks ht.1 ht.2.1.isLexeme rest'.text
      have htext : blanks ++ (lexeme ++ rest.text) = blanks' ++ (lexeme' ++ rest'.text) := h
      have hblanks : blanks = blanks' := by
        rw [← hspan.1, htext, hspan'.1]
      have hbehind : lexeme ++ rest.text = lexeme' ++ rest'.text := by
        rw [← hspan.2, htext, hspan'.2]
      have hlexeme : lexeme = lexeme' := hs.2.1.unique (hbehind ▸ ht.2.1)
      rw [hlexeme, List.append_cancel_left_eq] at hbehind
      rw [hblanks, hlexeme, ih hs.2.2 ht.2.2 hbehind]

/-! ## The tokens are the lexemes -/

theorem rest_afterBlanks (text : List Char) (position : Position) :
    (Cursor.afterBlanks text position).rest = text.dropWhile isBlank := by
  fun_induction Cursor.afterBlanks text position with
  | case1 => rfl
  | case2 rest position ih =>
    rw [ih, List.dropWhile_cons_of_pos (by decide), List.dropWhile_cons_of_pos (by decide)]
  | case3 c rest position _ hbreak ih =>
    rw [ih, List.dropWhile_cons_of_pos (isBlank_of_isLineBreak hbreak)]
  | case4 c rest position _ _ hblank ih => rw [ih, List.dropWhile_cons_of_pos hblank]
  | case5 c rest position _ _ hblank => rw [List.dropWhile_cons_of_neg hblank]

theorem isBlank_of_next?_eq_none {cursor : Cursor} (h : cursor.next? = none) :
    ∀ c ∈ cursor.rest, isBlank c = true := by
  have hskip : cursor.skipBlanks.rest = cursor.rest.dropWhile isBlank :=
    rest_afterBlanks cursor.rest cursor.position
  unfold Cursor.next? at h
  split at h
  · next position hstop =>
    rw [hstop] at hskip
    have hspan := List.takeWhile_append_dropWhile (p := isBlank) (l := cursor.rest)
    rw [← hskip, List.append_nil] at hspan
    rw [← hspan]
    exact List.all_eq_true.1 List.all_takeWhile
  · cases h

theorem exists_of_next?_eq_some {cursor after : Cursor} {token : Token}
    (h : cursor.next? = some (token, after)) :
    ∃ blanks c cs, cursor.rest = blanks ++ c :: cs ∧ (∀ b ∈ blanks, isBlank b = true) ∧
      isBlank c = false ∧ token.kind = (Lexeme.ofChars c cs).kind ∧
      token.value.toList = (Lexeme.ofChars c cs).chars ∧
      after.rest = (Lexeme.ofChars c cs).rest := by
  have hskip : cursor.skipBlanks.rest = cursor.rest.dropWhile isBlank :=
    rest_afterBlanks cursor.rest cursor.position
  unfold Cursor.next? at h
  split at h
  · cases h
  · next c cs position hstart =>
    cases h
    rw [hstart] at hskip
    refine ⟨cursor.rest.takeWhile isBlank, c, cs, ?_, List.all_eq_true.1 List.all_takeWhile,
      ?_, rfl, String.toList_ofList, rfl⟩
    · rw [show c :: cs = cursor.rest.dropWhile isBlank from hskip,
        List.takeWhile_append_dropWhile]
    · have hhead := List.head?_dropWhile_not isBlank cursor.rest
      rw [← hskip] at hhead
      simpa using hhead

/-- What is read in front of a cursor cuts its text. -/
theorem exists_segmentation (cursor : Cursor) :
    ∃ s : Segmentation, s.text = cursor.rest ∧ s.MaximalMunch ∧
      List.Forall₂ ReadAt cursor.drain.1 s.places := by
  fun_induction Cursor.drain cursor with
  | case1 cursor hnone =>
    exact ⟨.last cursor.rest, rfl, isBlank_of_next?_eq_none hnone, .nil⟩
  | case2 cursor token after hnext tokens stop hdrain ih =>
    rw [hdrain] at ih
    obtain ⟨s, htext, hmunch, hplaces⟩ := ih
    obtain ⟨blanks, c, cs, hrest, hblanks, hc, hkind, hvalue, hafter⟩ :=
      exists_of_next?_eq_some hnext
    obtain ⟨hlongest, hof⟩ := ofChars_spec cs hc
    rw [← hafter, ← htext, ← hvalue, ← hkind] at hof
    have hwhole : token.value.toList ++ s.text = c :: cs := by
      rw [hvalue, htext, hafter, Lexeme.chars_append_rest]
    refine ⟨.piece blanks token.value.toList s, ?_, ⟨hblanks, ?_, hmunch⟩, .cons ⟨rfl, ?_⟩ hplaces⟩
    · rw [Segmentation.text, hwhole, hrest]
    · rw [hwhole, hvalue]
      exact hlongest
    · have hlexeme : IsLexeme token.value.toList := hvalue ▸ hlongest.isLexeme
      exact fun kind ↦ ⟨fun h ↦ h.unique hlexeme hof, fun h ↦ h ▸ hof⟩

/-! ## Nothing is lost -/

theorem Segmentation.filter_text {s : Segmentation} (hs : s.MaximalMunch) :
    s.text.filter (fun c ↦ !isBlank c) = s.places.flatMap Prod.fst := by
  induction s with
  | last blanks =>
    refine List.filter_eq_nil_iff.2 fun c hc ↦ ?_
    simp [hs c hc]
  | piece blanks lexeme rest ih =>
    have hblanks : blanks.filter (fun c ↦ !isBlank c) = [] :=
      List.filter_eq_nil_iff.2 fun c hc ↦ by simp [hs.1 c hc]
    have hlexeme : lexeme.filter (fun c ↦ !isBlank c) = lexeme :=
      List.filter_eq_self.2 fun c hc ↦ by simp [hs.2.1.isLexeme.isBlank_eq_false c hc]
    rw [text, List.filter_append, List.filter_append, hblanks, hlexeme, ih hs.2.2,
      List.nil_append, places, List.flatMap_cons]

theorem flatMap_value_of_readAt {tokens : List Token} {places : List (List Char × List Char)}
    (h : List.Forall₂ ReadAt tokens places) :
    tokens.flatMap (fun token ↦ token.value.toList) = places.flatMap Prod.fst := by
  induction h with
  | nil => rfl
  | cons hread _ ih => rw [List.flatMap_cons, List.flatMap_cons, hread.1, ih]

/-- The tokens of a text are its only segmentation into longest lexemes. Each has the kind of its
lexeme in that place, and together they hold all characters of the text but the blanks. -/
theorem tokenize_segments (text : String) :
    ∃ s : Segmentation, (s.text = text.toList ∧ s.MaximalMunch) ∧
      (∀ t : Segmentation, t.text = text.toList → t.MaximalMunch → t = s) ∧
      List.Forall₂ ReadAt (tokenize text) s.places ∧
      (tokenize text).flatMap (fun token ↦ token.value.toList) =
        text.toList.filter fun c ↦ !isBlank c := by
  obtain ⟨s, htext, hmunch, hplaces⟩ := exists_segmentation (Cursor.ofText text)
  refine ⟨s, ⟨htext, hmunch⟩, fun t ht hcut ↦ ?_, hplaces, ?_⟩
  · exact Segmentation.eq_of_text_eq hcut hmunch (ht.trans htext.symm)
  · calc (tokenize text).flatMap (fun token ↦ token.value.toList)
        = s.places.flatMap Prod.fst := flatMap_value_of_readAt hplaces
      _ = s.text.filter (fun c ↦ !isBlank c) := (Segmentation.filter_text hmunch).symm
      _ = text.toList.filter (fun c ↦ !isBlank c) := by rw [htext]; rfl

end ShellLine.Lexicon
