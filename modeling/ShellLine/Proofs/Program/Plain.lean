import ShellLine.Proofs.Program.Parsed
import ShellLine.Proofs.Program.RoundTrip

/-!
# Texts that are plain words

A command without redirections can be taken from a text without reading tokens: its words
are what is left when the text is split at blanks. Reading gives the same command exactly if
each of these chunks is one lexeme that is no operator, and the first of them is not reserved.

One direction is that no other words come out of reading. For the other one the text is
followed from blank to blank, and what stands between two of them is a lexeme by assumption.
-/

namespace ShellLine

open Lexicon Grammar Text

/-! ## Splitting at blanks -/

/-- The longest pieces that hold no blank character. -/
def runs (text : List Char) : List (List Char) :=
  (text.splitOnP isBlank).filter fun piece ↦ !piece.isEmpty

/-- The chunks of a text that is split at its blank characters. -/
def chunks (text : String) : List String :=
  (runs text.toList).map String.ofList

theorem cutAtBlanks_eq_splitOnP (text : List Char) :
    cutAtBlanks text = text.splitOnP isBlank := by
  induction text with
  | nil => rw [cutAtBlanks, List.splitOnP_nil]
  | cons c text ih =>
    obtain ⟨piece, pieces, hcut⟩ := List.exists_cons_of_ne_nil (cutAtBlanks_ne_nil text)
    rw [cutAtBlanks, List.splitOnP_cons_eq_if_modifyHead, ← ih, hcut, List.modifyHead_cons]

/-- The words of a command taken from a text are its chunks. -/
theorem words_eq_chunks (text : String) : words text = chunks text := by
  rw [words, cutAtBlanks_eq_splitOnP]
  rfl

theorem runs_append_blank {c : Char} (hc : isBlank c = true) (front behind : List Char) :
    runs (front ++ c :: behind) = runs front ++ runs behind := by
  rw [runs, List.splitOnP_append_cons front behind hc, List.filter_append]
  rfl

theorem runs_of_unbroken {text : List Char} (h : ∀ c ∈ text, isBlank c = false) :
    runs text = if text.isEmpty then [] else [text] := by
  rw [runs, List.splitOnP_eq_singleton h]
  cases text <;> rfl

/-! ## Chunks are lexemes of their text -/

/-- The terminals that the runs of a text make if each of them is a word. -/
def runTerminals (text : List Char) : List Terminal :=
  (runs text).map fun run ↦ wordTerminal (String.ofList run)

theorem runTerminals_append_blank {c : Char} (hc : isBlank c = true) (front behind : List Char) :
    runTerminals (front ++ c :: behind) = runTerminals front ++ runTerminals behind := by
  rw [runTerminals, runs_append_blank hc, List.map_append]
  rfl

/-- A word that ends where a blank follows, or the text ends, is one lexeme. -/
theorem Cuts.exists_runTerminals {s : Segmentation} {front text : List Char}
    {terminals : List Terminal} (h : Cuts s text terminals)
    (hbehind : ∀ c ∈ text.head?, isBlank c = true) (hfront : ∀ c ∈ front, isBlank c = false)
    (hwords : ∀ run ∈ runs front, IsWord run) :
    ∃ t : Segmentation, Cuts t (front ++ text) (runTerminals front ++ terminals) := by
  rw [runTerminals]
  rw [runs_of_unbroken hfront] at hwords ⊢
  obtain ⟨word, rfl⟩ : ∃ word : String, word.toList = front :=
    ⟨String.ofList front, String.toList_ofList⟩
  by_cases hempty : word.toList.isEmpty = true
  · rw [if_pos hempty, List.isEmpty_iff.1 hempty]
    exact ⟨s, h⟩
  · rw [if_neg hempty] at hwords ⊢
    have hword : IsWord word.toList := hwords _ (List.mem_singleton_self _)
    have hlongest := longestAt_of_blank_behind (.inr hword) hbehind
    have hkind := hasKind_wordKind hword hbehind
    rw [List.map_singleton, String.ofList_toList]
    exact ⟨_, @Cuts.lexeme _ _ _ h (wordTerminal word) hlongest hkind⟩

/-- The induction is on the text behind the characters in front, among which no blank has been
found so far. -/
theorem exists_cuts_of_runs {front text : List Char} (hfront : ∀ c ∈ front, isBlank c = false)
    (hwords : ∀ run ∈ runs (front ++ text), IsWord run) :
    ∃ s : Segmentation, Cuts s (front ++ text) (runTerminals (front ++ text)) := by
  induction text generalizing front with
  | nil =>
    have hnothing : Cuts (.last []) [] [] := ⟨rfl, nofun, .nil⟩
    rw [List.append_nil] at hwords
    have hcuts := hnothing.exists_runTerminals nofun hfront hwords
    rw [List.append_nil] at hcuts ⊢
    rwa [List.append_nil] at hcuts
  | cons c text ih =>
    by_cases hc : isBlank c = true
    · rw [runs_append_blank hc] at hwords
      obtain ⟨hfirst, hothers⟩ := List.forall_mem_append.1 hwords
      obtain ⟨s, hs⟩ := @ih [] (List.forall_mem_nil _) hothers
      obtain ⟨t, ht⟩ := hs.exists_indented (List.forall_mem_singleton.2 hc)
      have hblank : ∀ d ∈ (c :: text).head?, isBlank d = true := by
        intro d hd
        rwa [← Option.some.inj hd]
      rw [runTerminals_append_blank hc]
      exact ht.exists_runTerminals hblank hfront hfirst
    · have hlonger : ∀ d ∈ front ++ [c], isBlank d = false :=
        List.forall_mem_append.2
          ⟨hfront, List.forall_mem_singleton.2 (Bool.eq_false_iff.2 hc)⟩
      have hcuts := ih hlonger
      rw [List.append_assoc, List.singleton_append] at hcuts
      exact hcuts hwords

/-- If all chunks are words, they are what is read. -/
theorem map_terminal_of_chunks {text : String}
    (h : ∀ chunk ∈ chunks text, IsWord chunk.toList) :
    (tokenize text).map Token.terminal = (chunks text).map wordTerminal := by
  have hruns : ∀ run ∈ runs text.toList, IsWord run := by
    intro run hrun
    have hword := h _ (List.mem_map_of_mem hrun)
    rwa [String.toList_ofList] at hword
  obtain ⟨s, hs⟩ := @exists_cuts_of_runs [] _ (List.forall_mem_nil _) hruns
  rw [chunks, List.map_map]
  exact terminals_of_segmentation hs.text_eq hs.maximalMunch hs.fits

/-! ## Words are derived -/

theorem derivesTail_words (arguments : List String) :
    DerivesTail (arguments.map wordTerminal) arguments [] := by
  induction arguments with
  | nil => exact .nil
  | cons argument arguments ih => exact .argument (isArgument_wordKind argument.toList) ih

theorem derivesProgram_words {name : String} (h : ∀ w ∈ ReservedWord.all, name ≠ w.spelling)
    (arguments : List String) :
    DerivesProgram ((name :: arguments).map wordTerminal)
      ⟨[.simple ⟨name, arguments, []⟩]⟩ := by
  have hcommand := DerivesCommand.named name (derivesTail_words arguments)
  rw [List.map_cons, wordTerminal, wordKind_eq_word h]
  exact .sequence (.chain (.operand (.operand (.operand hcommand))))

/-- A text is read as the command of its words exactly if it has a chunk, each chunk is one lexeme,
and the first one is not reserved. -/
theorem parse_eq_ofWords_iff (text : String) :
    parse text = .ok ⟨[.simple (.ofWords text)]⟩ ↔
      chunks text ≠ [] ∧ (∀ chunk ∈ chunks text, IsWord chunk.toList) ∧
        ∀ name ∈ (chunks text).head?, ∀ w : ReservedWord, name ≠ w.spelling := by
  rw [SimpleCommand.ofWords, words_eq_chunks]
  cases hchunks : chunks text with
  | nil =>
    constructor
    · intro h
      have hcanonical := (Program.Canonical.of_parse h).2 _ (List.mem_singleton_self _)
      exact absurd hcanonical.1.1 (by decide)
    · exact fun h ↦ absurd rfl h.1
  | cons name arguments =>
    constructor
    · intro h
      have hcanonical := (Program.Canonical.of_parse h).2 _ (List.mem_singleton_self _)
      obtain ⟨⟨hname, hfree⟩, harguments, -⟩ := hcanonical
      refine ⟨List.cons_ne_nil _ _, List.forall_mem_cons.2 ⟨hname, harguments⟩, ?_⟩
      intro first hfirst w
      rw [← Option.some.inj hfirst]
      exact hfree w w.mem_all
    · rintro ⟨-, hwords, hfree⟩
      apply parse_of_derivesProgram
      rw [map_terminal_of_chunks (hchunks ▸ hwords), hchunks]
      exact derivesProgram_words (fun w _ ↦ hfree name rfl w) arguments

end ShellLine
