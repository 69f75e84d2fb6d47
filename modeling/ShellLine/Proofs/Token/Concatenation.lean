import ShellLine.Proofs.Token.Seam

/-!
# Texts joined at a blank

Two texts with a blank between them are read one after the other: first the tokens of
the one, then those of the other. The tokens of the first text are where they were. If
the blank is a line feed, those of the second are further down by the lines of the
first, and in the same columns.

A carriage return at the end of the first text makes one break with a line feed behind
it. The texts are then cut in front of the carriage return, where no break is split.
-/

namespace ShellLine

open Text Lexicon

namespace Cursor

theorem rest_skipBlanks (cursor : Cursor) :
    cursor.skipBlanks.rest = cursor.rest.dropWhile isBlank :=
  Lexicon.rest_afterBlanks cursor.rest cursor.position

/-- Kinds and values depend only on what stands behind the blanks. -/
theorem map_terminal_drain_congr {cursor other : Cursor}
    (h : cursor.rest.dropWhile isBlank = other.rest.dropWhile isBlank) :
    cursor.drain.1.map Token.terminal = other.drain.1.map Token.terminal := by
  fun_induction drain cursor generalizing other with
  | case1 cursor hnone =>
    have hrest : other.skipBlanks.rest = [] := by
      rw [rest_skipBlanks, ← h, ← rest_skipBlanks]
      exact skipBlanks_rest_of_next?_eq_none hnone
    have hother : other.next? = none := by
      unfold next?
      split
      · rfl
      · next hstart =>
        rw [hstart] at hrest
        cases hrest
    rw [drain_of_next?_eq_none hother]
  | case2 cursor token after hnext tokens stop hdrain ih =>
    obtain ⟨c, cs, -, hstart⟩ := exists_skipBlanks_of_next? hnext
    have hread := next?_of_skipBlanks hstart
    have hother : other.skipBlanks = ⟨c :: cs, other.skipBlanks.position⟩ := by
      have hrest := cursor.rest_skipBlanks
      rw [h, ← rest_skipBlanks, hstart] at hrest
      rw [show c :: cs = other.skipBlanks.rest from hrest]
    generalize token.position = position at hread
    rw [hnext] at hread
    cases hread
    rw [hdrain] at ih
    rw [drain_of_next?_eq_some (next?_of_skipBlanks hother), List.map_cons, List.map_cons]
    exact congrArg _ (ih rfl)

/-- The second text is read from where the first one ends. -/
theorem drain_append {text behind : List Char} (position : Position)
    (hseam : BlankSeam text behind) (hbreak : ¬ SplitsBreak text behind) :
    (⟨text ++ behind, position⟩ : Cursor).drain.1 =
      (⟨text, position⟩ : Cursor).drain.1 ++
        (⟨behind, (⟨text, position⟩ : Cursor).drain.2.position⟩ : Cursor).drain.1 := by
  have hdrain := @drain_followedBy ⟨text, position⟩ behind hseam hbreak
  rw [followedBy, followedBy, rest_drain, List.nil_append] at hdrain
  rw [hdrain]

theorem blankSeam_cons {c : Char} (hc : isBlank c = true) (text behind : List Char) :
    BlankSeam text (c :: behind) := by
  refine .inr ?_
  rintro d ⟨⟩
  exact hc

/-- The blank between two texts is read from where the first one ends, or from in front of the
carriage return with which it makes one break. -/
theorem exists_drain_append_blank {c : Char} (hc : isBlank c = true) (text behind : List Char)
    (position : Position) :
    ∃ stop : Position,
      (⟨text ++ c :: behind, position⟩ : Cursor).drain.1 =
          (⟨text, position⟩ : Cursor).drain.1 ++ (⟨c :: behind, stop⟩ : Cursor).drain.1 ∧
        (c = '\n' → stop.line + 1 = position.line + lineBreaks (text ++ [c])) := by
  by_cases hbreak : SplitsBreak text (c :: behind)
  · obtain ⟨hreturn, hfeed⟩ := hbreak
    obtain rfl : c = '\n' := Option.some.inj hfeed
    obtain ⟨front, rfl⟩ : ∃ front, text = front ++ ['\r'] :=
      ⟨text.dropLast, (List.dropLast_append_getLast? '\r' hreturn).symm⟩
    have hunsplit : ∀ more, ¬ SplitsBreak front ('\r' :: more) :=
      fun more h ↦ absurd h.2 (by simp)
    have hreturns : ∀ more, BlankSeam front ('\r' :: more) :=
      blankSeam_cons (by decide) front
    refine ⟨(⟨front, position⟩ : Cursor).drain.2.position, ?_, fun _ ↦ ?_⟩
    · have hpair : ∀ stop : Position, (⟨'\r' :: '\n' :: behind, stop⟩ : Cursor).drain =
          (⟨'\n' :: behind, stop⟩ : Cursor).drain := fun stop ↦ drain_congr rfl
      have hlone : ∀ stop : Position, (⟨['\r'], stop⟩ : Cursor).drain.1 = [] := by
        intro stop
        rw [drain_of_next?_eq_none rfl]
      rw [List.append_assoc, List.singleton_append, drain_append position (hreturns _) (hunsplit _),
        drain_append position (hreturns _) (hunsplit _), hpair, hlone, List.append_nil]
    · rw [line_drain, List.append_assoc, List.singleton_append, lineBreaks_append (hunsplit _)]
      rfl
  · refine ⟨(⟨text, position⟩ : Cursor).drain.2.position, ?_, ?_⟩
    · exact drain_append position (blankSeam_cons hc text behind) hbreak
    · rintro rfl
      have hunsplit : ¬ SplitsBreak text ['\n'] := fun h ↦ hbreak ⟨h.1, rfl⟩
      rw [line_drain, lineBreaks_append hunsplit]
      rfl

end Cursor

/-- Tokens of two texts with a blank between them are the tokens of the one and then of the other.
If the blank is a line feed, all of them are also where they were, but for the lines above the
second text. -/
theorem tokenize_append_blank (a b : String) :
    (∀ c : Char, isBlank c = true →
      (tokenize (a ++ String.singleton c ++ b)).map Token.terminal =
        (tokenize a).map Token.terminal ++ (tokenize b).map Token.terminal) ∧
      tokenize (a ++ "\n" ++ b) =
        tokenize a ++ (tokenize b).map (Token.below · (lineBreaks (a ++ "\n").toList)) := by
  have htext : ∀ c : Char, Cursor.ofText (a ++ String.singleton c ++ b) =
      ⟨a.toList ++ c :: b.toList, .start⟩ := by
    intro c
    simp [Cursor.ofText]
  refine ⟨fun c hc ↦ ?_, ?_⟩
  · obtain ⟨stop, hdrain, -⟩ := Cursor.exists_drain_append_blank hc a.toList b.toList .start
    have hbehind : (⟨c :: b.toList, stop⟩ : Cursor).drain.1.map Token.terminal =
        (tokenize b).map Token.terminal :=
      Cursor.map_terminal_drain_congr (List.dropWhile_cons_of_pos hc)
    rw [tokenize, htext, hdrain, List.map_append, hbehind]
    rfl
  · obtain ⟨stop, hdrain, hline⟩ :=
      Cursor.exists_drain_append_blank (c := '\n') (by decide) a.toList b.toList .start
    have hbelow : (⟨b.toList, stop.nextLine⟩ : Cursor) =
        (Cursor.ofText b).below (lineBreaks (a ++ "\n").toList) := by
      have hlines : (a ++ "\n").toList = a.toList ++ ['\n'] := String.toList_append
      rw [Position.nextLine, hline rfl, hlines]
      rfl
    have hfeed : (⟨'\n' :: b.toList, stop⟩ : Cursor).drain =
        (⟨b.toList, stop.nextLine⟩ : Cursor).drain := Cursor.drain_congr rfl
    have hsingle : "\n" = String.singleton '\n' := rfl
    rw [tokenize, hsingle, htext, hdrain, hfeed, hbelow, Cursor.drain_below]
    rfl

theorem tokenize_append_blank_behind_return :
    tokenize "x 2\r" = [⟨.word, "x", ⟨1, 1⟩⟩, ⟨.word, "2", ⟨1, 3⟩⟩] ∧
      tokenize "\r>y" = [⟨.redirection .write, ">", ⟨2, 1⟩⟩, ⟨.word, "y", ⟨2, 2⟩⟩] ∧
      isBlank '\u2003' = true ∧
      (tokenize "x 2\r\u2003\r>y").map Token.terminal =
        [⟨.word, "x"⟩, ⟨.word, "2"⟩, ⟨.redirection .write, ">"⟩, ⟨.word, "y"⟩] ∧
      tokenize "x 2\r\n\r>y" = [⟨.word, "x", ⟨1, 1⟩⟩, ⟨.word, "2", ⟨1, 3⟩⟩,
        ⟨.redirection .write, ">", ⟨3, 1⟩⟩, ⟨.word, "y", ⟨3, 2⟩⟩] := by
  have ha : tokenize "x 2\r" = [⟨.word, "x", ⟨1, 1⟩⟩, ⟨.word, "2", ⟨1, 3⟩⟩] := by
    decide +kernel
  have hb : tokenize "\r>y" =
      [⟨.redirection .write, ">", ⟨2, 1⟩⟩, ⟨.word, "y", ⟨2, 2⟩⟩] := by
    decide +kernel
  have hblank : isBlank '\u2003' = true := by decide
  obtain ⟨hterminals, htokens⟩ := tokenize_append_blank "x 2\r" "\r>y"
  refine ⟨ha, hb, hblank, ?_, ?_⟩
  · have hseam := hterminals '\u2003' hblank
    rw [ha, hb] at hseam
    exact hseam
  · rw [ha, hb] at htokens
    exact htokens

end ShellLine
