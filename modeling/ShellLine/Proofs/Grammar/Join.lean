import ShellLine.Proofs.Grammar.FaultIndex
import ShellLine.Proofs.Program.Parsed
import ShellLine.Proofs.Token.Seam

/-!
# Lines joined by a separator

A program in front of a separator and a line break goes on with what is in the lines
below. Chains group to the left, so the program above is joined to the first operand
below, however deep this one lies.

What is wrong below stays wrong, for the same cause and further down. Only a control
operator at the front is now an operator behind an operator.
-/

namespace ShellLine

open Grammar Text

/-! ## The tokens of joined lines -/

/-- Two texts with a separator between them, and a line break behind the separator. -/
def joinLines (a : String) (op : Separator) (b : String) : String :=
  a ++ " " ++ op.spelling ++ "\n" ++ b

/-- The token of the separator between two texts. -/
def joint (a : String) (op : Separator) : Token :=
  ⟨.control (.separator op), op.spelling, (endOfInput a).position.advance 1⟩

/-- The number of lines above the second text. -/
def linesAbove (a : String) : Nat := lineBreaks a.toList + 1

theorem toList_joinLines (a : String) (op : Separator) (b : String) :
    (joinLines a op b).toList = a.toList ++ (' ' :: (op.spelling.toList ++ '\n' :: b.toList)) := by
  simp only [joinLines, String.toList_append, List.append_assoc]
  rfl

theorem Cursor.drain_separator (op : Separator) (behind : List Char) (position : Position) :
    (⟨' ' :: (op.spelling.toList ++ '\n' :: behind), position⟩ : Cursor).drain =
      (⟨.control (.separator op), op.spelling, position.advance 1⟩ ::
          (⟨behind, position.nextLine⟩ : Cursor).drain.1,
        (⟨behind, position.nextLine⟩ : Cursor).drain.2) := by
  have hnext : (⟨' ' :: (op.spelling.toList ++ '\n' :: behind), position⟩ : Cursor).next? =
      some (⟨.control (.separator op), op.spelling, position.advance 1⟩,
        ⟨'\n' :: behind, (position.advance 1).advance 1⟩) := by
    cases op <;> rfl
  have hline : (⟨'\n' :: behind, (position.advance 1).advance 1⟩ : Cursor).drain =
      (⟨behind, position.nextLine⟩ : Cursor).drain :=
    drain_congr rfl
  rw [drain_of_next?_eq_some hnext, hline]

theorem drain_joinLines (a : String) (op : Separator) (b : String) :
    (Cursor.ofText (joinLines a op b)).drain =
      (tokenize a ++ joint a op :: (tokenize b).map (Token.below · (linesAbove a)),
        (Cursor.ofText b).drain.2.below (linesAbove a)) := by
  have hjoined : Cursor.ofText (joinLines a op b) =
      (Cursor.ofText a).followedBy (' ' :: (op.spelling.toList ++ '\n' :: b.toList)) := by
    rw [Cursor.ofText, toList_joinLines]
    rfl
  have hseam : BlankSeam a.toList (' ' :: (op.spelling.toList ++ '\n' :: b.toList)) := by
    refine .inr ?_
    rintro c ⟨⟩
    decide
  have hbreak : ¬ SplitsBreak a.toList (' ' :: (op.spelling.toList ++ '\n' :: b.toList)) :=
    fun h ↦ absurd h.2 (by simp)
  have hstop : (Cursor.ofText a).drain.2.followedBy
      (' ' :: (op.spelling.toList ++ '\n' :: b.toList)) =
        ⟨' ' :: (op.spelling.toList ++ '\n' :: b.toList), (endOfInput a).position⟩ := by
    rw [Cursor.followedBy, Cursor.rest_drain]
    rfl
  have hbelow : (⟨b.toList, (endOfInput a).position.nextLine⟩ : Cursor) =
      (Cursor.ofText b).below (linesAbove a) := by
    have hline : (endOfInput a).position.line = 1 + lineBreaks a.toList :=
      (Cursor.ofText a).line_drain
    rw [Position.nextLine, hline, Nat.add_assoc]
    rfl
  rw [hjoined, Cursor.drain_followedBy hseam hbreak, hstop, Cursor.drain_separator, hbelow,
    Cursor.drain_below]
  rfl

theorem tokenize_joinLines (a : String) (op : Separator) (b : String) :
    tokenize (joinLines a op b) =
      tokenize a ++ joint a op :: (tokenize b).map (Token.below · (linesAbove a)) := by
  rw [tokenize, drain_joinLines]

theorem stream_joinLines (a : String) (op : Separator) (b : String) :
    tokenize (joinLines a op b) ++ [endOfInput (joinLines a op b)] =
      tokenize a ++ joint a op ::
        (tokenize b ++ [endOfInput b]).map (Token.below · (linesAbove a)) := by
  rw [tokenize_joinLines, endOfInput, drain_joinLines, List.append_assoc, List.cons_append,
    List.map_append]
  rfl

/-- The lines of the second text are found below those of the first. -/
theorem sourceLine_joinLines (a : String) (op : Separator) (b : String) {line : Nat}
    (h : 0 < line) :
    sourceLine (joinLines a op b) (line + linesAbove a) = sourceLine b line := by
  have hspelling : lineBreaks (' ' :: op.spelling.toList) = 0 := by cases op <;> decide
  have hsplit : ¬ SplitsBreak a.toList (' ' :: op.spelling.toList) :=
    fun h ↦ absurd h.2 (by simp)
  have hsplit' : ¬ SplitsBreak (a.toList ++ ' ' :: op.spelling.toList) ('\n' :: b.toList) := by
    rintro ⟨hlast, -⟩
    rw [List.getLast?_append] at hlast
    cases op <;> cases hlast
  have hbehind := behindBreaks?_append_newline hsplit'
  rw [lineBreaks_append hsplit, hspelling, List.append_assoc, Nat.add_zero] at hbehind
  have hindex : line + linesAbove a - 1 = lineBreaks a.toList + 1 + (line - 1) := by
    rw [linesAbove]
    omega
  rw [sourceLine, sourceLine, toList_joinLines, hindex, ← lineAfter_add hbehind]
  rfl

/-! ## Programs -/

/-- A tree with another one behind it: where the chain of separators on top of this one has its
first operand, the two are joined. -/
def Node.inFrontOf (front : Node) (op : Separator) : Node → Node
  | .sequence op' lhs rhs => .sequence op' (front.inFrontOf op lhs) rhs
  | .terminated op' lhs => .terminated op' (front.inFrontOf op lhs)
  | operand => .sequence op front operand

theorem Node.inFrontOf_of_not_isSequence {node : Node} (h : node.isSequence = false)
    (front : Node) (op : Separator) : front.inFrontOf op node = .sequence op front node := by
  cases node with
  | sequence op' lhs rhs => cases h
  | terminated op' lhs => cases h
  | conditional op' lhs rhs => rfl
  | pipe lhs rhs => rfl
  | simple command => rfl
  | subshell nodes => rfl

variable {above below : List Terminal} {front node : Node}

/-- A chain behind a chain is one chain. -/
theorem Grammar.DerivesChain.inFrontOf (op : Separator)
    (hfront : DerivesChain .sequence DerivesConditional above front)
    (h : DerivesChain .sequence DerivesConditional below node) (hreadable : AllReadable below) :
    DerivesChain .sequence DerivesConditional (above ++ .control (.separator op) :: below)
      (front.inFrontOf op node) := by
  induction h with
  | operand h =>
    have hoperand := (yields_conditional h hreadable).1
    rw [Node.inFrontOf_of_not_isSequence hoperand]
    exact hfront.join (.separator op) rfl h
  | @joined _ left right lhs rhs _ hjoins hleft hright ih =>
    have hfirst := ih hreadable.of_append.1
    cases hjoins with
    | separator op' =>
      have hjoined := hfirst.joined (.separator op' _ rhs) hright
      rw [List.append_assoc, List.cons_append] at hjoined
      exact hjoined

theorem Grammar.DerivesSequence.inFrontOf (op : Separator)
    (hfront : DerivesChain .sequence DerivesConditional above front)
    (h : DerivesSequence below node) (hreadable : AllReadable below) :
    DerivesSequence (above ++ .control (.separator op) :: below) (front.inFrontOf op node) := by
  cases h with
  | chain h => exact .chain (hfront.inFrontOf op h hreadable)
  | @closed op' terminals lhs h =>
    have hclosed := DerivesSequence.closed op' (hfront.inFrontOf op h hreadable.of_append.1)
    rw [List.append_assoc, List.cons_append] at hclosed
    exact hclosed

theorem map_terminal_joinLines (a : String) (op : Separator) (b : String) :
    (tokenize (joinLines a op b)).map Token.terminal =
      (tokenize a).map Token.terminal ++
        .control (.separator op) :: (tokenize b).map Token.terminal := by
  rw [tokenize_joinLines, List.map_append, List.map_cons, List.map_map]
  rfl

/-! ## Faults behind the separator -/

/-- A token that is no control operator has the fault behind a separator that it has in front of
all. -/
theorem fault_joint (a : String) (op : Separator) {token : Token}
    (h : token.kind.isControl = false) :
    fault (some (joint a op)) token = fault none token := by
  change openingFault (some (joint a op)) token = openingFault none token
  cases hkind : token.kind with
  | control op' =>
    rw [hkind] at h
    cases h
  | reserved w => cases w <;> simp [openingFault, hkind]
  | eof => simp [openingFault, hkind, joint]
  | word => simp [openingFault, hkind]
  | redirection op' => simp [openingFault, hkind]
  | ioNumber => simp [openingFault, hkind]

theorem firstFault_behind_joint (a : String) (op : Separator) {b : String}
    (hfirst : ∀ first rest, tokenize b = first :: rest → first.kind.isControl = false)
    (lines : Nat) :
    firstFault (some (joint a op)) ((tokenize b ++ [endOfInput b]).map (Token.below · lines)) =
      (firstFault none (tokenize b ++ [endOfInput b])).map fun found ↦
        (found.1, found.2.below lines) := by
  have hmap := firstFault_map (Token.terminal_below · lines) none (tokenize b ++ [endOfInput b])
  rw [← hmap]
  cases htokens : tokenize b with
  | nil => exact firstFault_cons_congr (fault_joint a op rfl) _
  | cons first rest =>
    have hother : (first.below lines).kind.isControl = false := hfirst first rest htokens
    exact firstFault_cons_congr (fault_joint a op hother) _

/-! ## What joined lines say -/

section Joined

variable {a b : String} {left right : Node} (op : Separator)
  (ha : DerivesChain .sequence DerivesConditional ((tokenize a).map Token.terminal) left)

include ha

theorem parse_joinLines_of_nil (hb : parse b = .ok ⟨[]⟩) :
    parse (joinLines a op b) = .ok ⟨[.terminated op left]⟩ := by
  apply parse_of_derivesProgram
  rw [map_terminal_joinLines, (derivesProgram_of_parse hb).eq_nil]
  exact .sequence (.closed op ha)

theorem parse_joinLines_of_singleton (hb : parse b = .ok ⟨[right]⟩) :
    parse (joinLines a op b) = .ok ⟨[left.inFrontOf op right]⟩ := by
  have hsequence := (derivesProgram_of_parse hb).derivesSequence
  have hreadable := allReadable_of_wellFormed (wellFormed_tokenize b)
  apply parse_of_derivesProgram
  rw [map_terminal_joinLines]
  exact .sequence (hsequence.inFrontOf op ha hreadable)

/-- There is no fault up to the separator. -/
theorem firstFault_joint : firstFault none (tokenize a ++ [joint a op]) = none := by
  have hempty : parse "" = .ok ⟨[]⟩ := by decide +kernel
  have hnone := firstFault_eq_none_of_parse (parse_joinLines_of_nil op ha hempty)
  rw [stream_joinLines, List.append_cons, firstFault_append, Option.or_eq_none_iff] at hnone
  exact hnone.1

/-- Behind the separator the scan goes on with it as the token in front. -/
theorem firstFault_joinLines (b : String) :
    firstFault none (tokenize (joinLines a op b) ++ [endOfInput (joinLines a op b)]) =
      firstFault (some (joint a op))
        ((tokenize b ++ [endOfInput b]).map (Token.below · (linesAbove a))) := by
  rw [stream_joinLines, List.append_cons, firstFault_append, firstFault_joint op ha,
    Option.none_or, List.getLast?_concat]
  rfl

/-- An error is found below the first text where it was, unless an operator comes first. -/
theorem parse_joinLines_of_fault {cause : ParseError.Cause} {token : Token}
    (hmem : token ∈ tokenize b ++ [endOfInput b])
    (h : firstFault (some (joint a op))
      ((tokenize b ++ [endOfInput b]).map (Token.below · (linesAbove a))) =
        some (cause, token.below (linesAbove a))) :
    parse (joinLines a op b) = .error ⟨cause, token.position.below (linesAbove a),
      sourceLine b token.position.line⟩ := by
  rw [← sourceLine_joinLines a op b (line_pos_of_mem hmem)]
  rw [← firstFault_joinLines op ha b] at h
  exact parse_of_firstFault h

end Joined

/-- A program above a separator and a line break makes one program with the program below. Where
the text below is no program, the whole fails for the same cause at the same token, further down by
the lines above. An operator in front below fails as the second one of two operators. -/
theorem parse_joinLines {a b : String} {op : Separator} {left : Node}
    (ha : parse a = .ok ⟨[left]⟩) (hopen : ∀ op' lhs, left ≠ .terminated op' lhs) :
    (parse b = .ok ⟨[]⟩ → parse (joinLines a op b) = .ok ⟨[.terminated op left]⟩) ∧
      (∀ right, parse b = .ok ⟨[right]⟩ →
        parse (joinLines a op b) = .ok ⟨[left.inFrontOf op right]⟩) ∧
      (∀ first rest, tokenize b = first :: rest → first.kind.isControl = true →
        parse (joinLines a op b) = .error ⟨.operatorAfterOperator op.spelling first.value,
          first.position.below (linesAbove a), sourceLine b first.position.line⟩) ∧
      ∀ e, parse b = .error e →
        (∀ first rest, tokenize b = first :: rest → first.kind.isControl = false) →
          parse (joinLines a op b) =
            .error ⟨e.cause, e.position.below (linesAbove a), e.sourceLine⟩ := by
  have hchain := (derivesProgram_of_parse ha).derivesSequence.derivesChain hopen
  refine ⟨parse_joinLines_of_nil op hchain, fun right ↦ parse_joinLines_of_singleton op hchain,
    fun first rest hb hcontrol ↦ ?_, fun e he hfirst ↦ ?_⟩
  · obtain ⟨op', hop⟩ := Token.Kind.isControl_iff.1 hcontrol
    apply parse_joinLines_of_fault op hchain
    · rw [hb]
      exact List.mem_cons_self ..
    · rw [hb]
      apply firstFault_of_eq_some
      simp only [fault, openingFault, joint, Token.below, hop]
  · obtain ⟨token, hfault, hposition, hline⟩ := exists_fault_of_parse_eq_error he
    rw [hposition, hline]
    apply parse_joinLines_of_fault op hchain (mem_of_firstFault hfault)
    rw [firstFault_behind_joint a op hfirst, hfault]
    rfl

theorem parse_joinLines_over_breaks :
    parse "a\r\n&& b\r" = .ok ⟨[.conditional .and (.simple ⟨"a", [], []⟩)
        (.simple ⟨"b", [], []⟩)]⟩ ∧
      parse (joinLines "a\r\n&& b\r" .ampersand "c; d|e;") =
        .ok ⟨[.terminated .semicolon (.sequence .semicolon
          (.sequence .ampersand
            (.conditional .and (.simple ⟨"a", [], []⟩) (.simple ⟨"b", [], []⟩))
            (.simple ⟨"c", [], []⟩))
          (.pipe (.simple ⟨"d", [], []⟩) (.simple ⟨"e", [], []⟩)))]⟩ ∧
      parse (joinLines "a\r\n&& b\r" .ampersand "\n | c") =
        .error ⟨.operatorAfterOperator "&" "|", ⟨5, 2⟩, " | c"⟩ ∧
      parse (joinLines "a\r\n&& b\r" .ampersand "c\n>") =
        .error ⟨.missingTarget ">", ⟨5, 2⟩, ">"⟩ := by
  have ha : parse "a\r\n&& b\r" = .ok ⟨[.conditional .and (.simple ⟨"a", [], []⟩)
      (.simple ⟨"b", [], []⟩)]⟩ := by
    decide +kernel
  have hlines : linesAbove "a\r\n&& b\r" = 3 := by decide +kernel
  refine ⟨ha, ?_, ?_, ?_⟩
  · have hb : parse "c; d|e;" = .ok ⟨[.terminated .semicolon (.sequence .semicolon
        (.simple ⟨"c", [], []⟩) (.pipe (.simple ⟨"d", [], []⟩) (.simple ⟨"e", [], []⟩)))]⟩ := by
      decide +kernel
    exact (parse_joinLines ha nofun).2.1 _ hb
  · have hb : tokenize "\n | c" = [⟨.control .pipe, "|", ⟨2, 2⟩⟩, ⟨.word, "c", ⟨2, 4⟩⟩] := by
      decide +kernel
    have hline : sourceLine "\n | c" 2 = " | c" := by decide +kernel
    rw [(parse_joinLines ha nofun).2.2.1 _ _ hb rfl, hlines, hline]
    rfl
  · have hb : parse "c\n>" = .error ⟨.missingTarget ">", ⟨2, 2⟩, ">"⟩ := by decide +kernel
    have hfirst : ∀ first rest, tokenize "c\n>" = first :: rest →
        first.kind.isControl = false := by
      have htokens : tokenize "c\n>" =
          [⟨.word, "c", ⟨1, 1⟩⟩, ⟨.redirection .write, ">", ⟨2, 1⟩⟩] := by
        decide +kernel
      rw [htokens]
      rintro first rest ⟨⟩
      rfl
    rw [(parse_joinLines ha nofun).2.2.2 _ hb hfirst, hlines]
    rfl

end ShellLine
