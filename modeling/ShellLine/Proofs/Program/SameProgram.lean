import ShellLine.Proofs.Program.Outline

/-!
# When two texts are the same program

Two texts that are programs are the same program exactly if their outlines are the same.
The layout of a text is not in its outline, and neither is the place of a redirection
among the words behind a name. So these make no difference, and everything else does.
-/

namespace ShellLine

namespace Grammar

/-! ## Words and redirections in another order -/

/-- The last terminal is neither an operator that needs a target nor a number that needs an
operator. -/
def Settled (terminals : List Terminal) : Prop :=
  ∀ terminal ∈ terminals.getLast?, terminal.kind.opensRedirection = false

variable {terminal : Terminal} {before tail tail' last : List Terminal} {arguments : List String}
  {redirections : List Redirection}

theorem Settled.of_append (h : Settled (before ++ last)) : Settled last := by
  cases last with
  | nil => exact nofun
  | cons terminal last =>
    unfold Settled at h
    rw [List.getLast?_append_of_ne_nil _ (List.cons_ne_nil terminal last)] at h
    exact h

theorem Settled.of_cons (h : Settled (terminal :: before)) : Settled before := by
  have hwhole : Settled ([terminal] ++ before) := h
  exact hwhole.of_append

theorem Settled.opensRedirection_eq_false (h : Settled (terminal :: before))
    (hlast : before = []) : terminal.kind.opensRedirection = false := by
  subst hlast
  exact h terminal rfl

theorem isRedirection_eq_false_of_opensRedirection (h : terminal.kind.opensRedirection = false) :
    terminal.kind.isRedirection = false := by
  cases hkind : terminal.kind with
  | redirection op =>
    rw [hkind] at h
    cases h
  | _ => rfl

theorem digits?_eq_none_of_opensRedirection (h : terminal.kind.opensRedirection = false) :
    digits? terminal = none := by
  refine if_neg fun hnumber ↦ ?_
  rw [hnumber] at h
  cases h

theorem freeWords_append {behindOperator : Bool} (h : Settled before)
    (hfirst : before = [] → behindOperator = false) (rest : List Terminal) :
    freeWords behindOperator (before ++ rest) =
      freeWords behindOperator before ++ freeWords false rest := by
  induction before generalizing behindOperator with
  | nil =>
    rw [hfirst rfl]
    rfl
  | cons terminal before ih =>
    have hothers := ih h.of_cons fun hlast ↦
      isRedirection_eq_false_of_opensRedirection (h.opensRedirection_eq_false hlast)
    rw [List.cons_append, freeWords, freeWords, hothers]
    split
    · rfl
    · rfl

theorem writtenRedirections_append {number : Option String} (h : Settled before)
    (hfirst : before = [] → number = none) (rest : List Terminal) :
    writtenRedirections number (before ++ rest) =
      writtenRedirections number before ++ writtenRedirections none rest := by
  induction before generalizing number with
  | nil =>
    rw [hfirst rfl]
    rfl
  | cons terminal before ih =>
    have hothers := ih h.of_cons fun hlast ↦
      digits?_eq_none_of_opensRedirection (h.opensRedirection_eq_false hlast)
    rw [List.cons_append, writtenRedirections, writtenRedirections, hothers]
    split
    · next op hop =>
      cases before with
      | nil =>
        have hopens := h.opensRedirection_eq_false rfl
        rw [hop] at hopens
        cases hopens
      | cons next before => rfl
    · rfl

/-- Where the same words and redirections are mixed in another way, the same is gathered. -/
theorem gather_append (h : DerivesTail tail arguments redirections)
    (h' : DerivesTail tail' arguments redirections) (hbefore : Settled before)
    (rest : List Terminal) :
    gather (before ++ (tail ++ rest)) = gather (before ++ (tail' ++ rest)) := by
  have hgather : ∀ {tail}, DerivesTail tail arguments redirections →
      gather (before ++ (tail ++ rest)) =
        ⟨freeWords false before ++ (arguments ++ freeWords false rest),
          writtenRedirections none before ++
            (redirections.map Redirection.written ++ writtenRedirections none rest)⟩ := by
    intro tail htail
    rw [gather, freeWords_append hbefore (fun _ ↦ rfl), htail.freeWords_append,
      writtenRedirections_append hbefore (fun _ ↦ rfl), htail.writes]
  rw [hgather h, hgather h']

/-! ## The part around a tail -/

theorem parts_append_cons (h : terminal.kind.isControl = true) (left right : List Terminal) :
    (outline (left ++ terminal :: right)).parts =
      (outline left).parts ++ (outline right).parts := by
  rw [outline, List.splitOnP_append_cons left right h, List.map_append]
  rfl

theorem uncut_or_exists_control (terminals : List Terminal) :
    Uncut terminals ∨ ∃ first terminal rest, terminals = first ++ terminal :: rest ∧
      terminal.kind.isControl = true ∧ Uncut first := by
  cases hfind : terminals.find? (·.kind.isControl) with
  | none =>
    left
    intro terminal hmem
    exact Bool.eq_false_iff.2 (List.find?_eq_none.1 hfind terminal hmem)
  | some terminal =>
    obtain ⟨hcontrol, first, rest, hterminals, hfirst⟩ := List.find?_eq_some_iff_append.1 hfind
    refine .inr ⟨first, terminal, rest, hterminals, hcontrol, fun terminal hmem ↦ ?_⟩
    exact Bool.not_eq_true' _ ▸ hfirst terminal hmem

/-- What comes up to the first control operator belongs to the part in front. -/
theorem exists_first_part (after : List Terminal) :
    ∃ first back, ∀ front, Uncut front →
      (outline (front ++ after)).parts = gather (front ++ first) :: back := by
  rcases uncut_or_exists_control after with hafter | ⟨first, terminal, rest, rfl, hcontrol, hfirst⟩
  · refine ⟨after, [], fun front hfront ↦ ?_⟩
    rw [(hfront.append hafter).outline_eq]
    rfl
  · refine ⟨first, (outline rest).parts, fun front hfront ↦ ?_⟩
    rw [← List.append_assoc, parts_append_cons hcontrol, (hfront.append hfirst).outline_eq]
    rfl

/-- What comes behind the last control operator belongs to the part behind. -/
theorem exists_last_part (before : List Terminal) :
    ∃ front last, last <:+ before ∧ Uncut last ∧
      ∀ rest, (outline (before ++ rest)).parts = front ++ (outline (last ++ rest)).parts := by
  -- The last control operator is the first one from behind.
  rcases uncut_or_exists_control before.reverse with
    hbefore | ⟨last, terminal, front, hreverse, hcontrol, hlast⟩
  · refine ⟨[], before, List.suffix_rfl, fun terminal hmem ↦ ?_, fun rest ↦ rfl⟩
    exact hbefore terminal (List.mem_reverse.2 hmem)
  · have hbefore : before = front.reverse ++ terminal :: last.reverse := by
      rw [← List.reverse_reverse before, hreverse, List.reverse_append, List.reverse_cons,
        List.append_assoc, List.singleton_append]
    refine ⟨(outline front.reverse).parts, last.reverse, ?_, fun terminal hmem ↦ ?_, fun rest ↦ ?_⟩
    · exact ⟨front.reverse ++ [terminal], by rw [hbefore, List.append_assoc, List.singleton_append]⟩
    · exact hlast terminal (List.mem_reverse.1 hmem)
    · rw [hbefore, List.append_assoc, List.cons_append, parts_append_cons hcontrol]

theorem DerivesTail.uncut (h : DerivesTail tail arguments redirections) : Uncut tail :=
  h.operatorsBelow.uncut

theorem outline_append_congr (h : DerivesTail tail arguments redirections)
    (h' : DerivesTail tail' arguments redirections) (hbefore : Settled before)
    (after : List Terminal) :
    outline (before ++ (tail ++ after)) = outline (before ++ (tail' ++ after)) := by
  obtain ⟨first, back, hfirst⟩ := exists_first_part after
  obtain ⟨front, last, ⟨others, rfl⟩, hlast, hfront⟩ := exists_last_part before
  have hparts : ∀ {tail}, DerivesTail tail arguments redirections →
      (outline (others ++ last ++ (tail ++ after))).parts =
        front ++ gather (last ++ (tail ++ first)) :: back := by
    intro tail htail
    rw [hfront, ← List.append_assoc last, hfirst _ (hlast.append htail.uncut), List.append_assoc]
  apply Outline.ext
  · unfold outline
    simp only [List.filterMap_append, h.uncut.filterMap_control?, h'.uncut.filterMap_control?]
  · rw [hparts h, hparts h', gather_append h h' hbefore.of_append first]

/-! ## Behind a name -/

/-- A word or a reserved word is the last terminal. -/
def EndsInWord (terminals : List Terminal) : Prop :=
  ∃ terminal ∈ terminals.getLast?, terminal.kind.isArgument = true

theorem EndsInWord.settled (h : EndsInWord before) : Settled before := by
  obtain ⟨word, hlast, hword⟩ := h
  intro terminal hterminal
  obtain rfl := Option.mem_unique hlast hterminal
  rw [Bool.eq_false_iff]
  exact fun hopens ↦ Token.Kind.not_isArgument_of_opensRedirection hopens hword

theorem laterFault_opener {opener target : Token} {op : RedirectionOperator}
    (hop : opener.kind = .redirection op) (htarget : target.kind.isArgument = true)
    (rest : List Token) : laterFault (opener :: target :: rest) = laterFault rest := by
  have hnone : fault (some opener) target = none := by
    simp [fault, hop, htarget]
  calc laterFault (opener :: target :: rest)
      = laterFault (target :: rest) := firstFault_of_eq_none rest hnone
    _ = laterFault rest := laterFault_cons rest (.inl htarget)

theorem DerivesRedirection.laterFault_append {tokens : List Token} {redirection : Redirection}
    (h : DerivesRedirection (tokens.map Token.terminal) redirection) (rest : List Token) :
    laterFault (tokens ++ rest) = laterFault rest := by
  generalize hterminals : tokens.map Token.terminal = terminals at h
  cases h with
  | plain op htarget =>
    obtain ⟨opener, behind, rfl, hopener, hbehind⟩ := List.map_eq_cons_iff.1 hterminals
    obtain ⟨target, rfl, rfl⟩ := List.map_eq_singleton_iff.1 hbehind
    exact laterFault_opener (congrArg Terminal.kind hopener) htarget rest
  | numbered descriptor op htarget =>
    obtain ⟨number, behind, rfl, hnumber, hbehind⟩ := List.map_eq_cons_iff.1 hterminals
    obtain ⟨opener, behind, rfl, hopener, hbehind⟩ := List.map_eq_cons_iff.1 hbehind
    obtain ⟨target, rfl, rfl⟩ := List.map_eq_singleton_iff.1 hbehind
    calc laterFault (number :: opener :: target :: rest)
        = laterFault (opener :: target :: rest) :=
          laterFault_cons _ (.inr (congrArg Terminal.kind hnumber))
      _ = laterFault rest := laterFault_opener (congrArg Terminal.kind hopener) htarget rest

theorem DerivesTail.laterFault_append (h : DerivesTail tail arguments redirections)
    {tokens : List Token} (hterminals : tokens.map Token.terminal = tail) (rest : List Token) :
    laterFault (tokens ++ rest) = laterFault rest := by
  induction h generalizing tokens with
  | nil =>
    obtain rfl := List.map_eq_nil_iff.1 hterminals
    rfl
  | argument hargument _ ih =>
    obtain ⟨token, behind, rfl, rfl, hbehind⟩ := List.map_eq_cons_iff.1 hterminals
    rw [List.cons_append, laterFault_cons _ (.inl hargument), ih hbehind]
  | redirection hhead _ ih =>
    obtain ⟨head, behind, rfl, rfl, hbehind⟩ := List.map_eq_append_iff.1 hterminals
    rw [List.append_assoc, hhead.laterFault_append, ih hbehind]

/-- Whether there is a fault does not depend on what is mixed behind a name. -/
theorem DerivesTail.firstFault_append (h : DerivesTail tail arguments redirections)
    {front tokens : List Token} (hterminals : tokens.map Token.terminal = tail)
    (hfront : EndsInWord (front.map Token.terminal)) (rest : List Token) :
    firstFault none (front ++ (tokens ++ rest)) = firstFault none (front ++ rest) := by
  obtain ⟨word, hlast, hword⟩ := hfront
  rw [List.getLast?_map] at hlast
  obtain ⟨token, htoken, rfl⟩ := Option.map_eq_some_iff.1 hlast
  have hskip : ∀ tokens, firstFault (some token) tokens = laterFault tokens :=
    fun tokens ↦ laterFault_cons tokens (.inl hword)
  calc firstFault none (front ++ (tokens ++ rest))
      = (firstFault none front).or (laterFault (tokens ++ rest)) := by
        rw [Grammar.firstFault_append, htoken, Option.some_or, hskip]
    _ = (firstFault none front).or (laterFault rest) := by
        rw [h.laterFault_append hterminals]
    _ = firstFault none (front ++ rest) := by
        rw [Grammar.firstFault_append, htoken, Option.some_or, hskip]

end Grammar

open Grammar

/-- A text that mixes the words and redirections behind a name in another way than a program does is
a program, too. -/
theorem exists_parse_of_mixed {a b : String} {before tail tail' after : List Terminal}
    {arguments : List String} {redirections : List Redirection}
    (ha : ∃ program, parse a = .ok program)
    (hterminals : (tokenize a).map Token.terminal = before ++ (tail ++ after))
    (hterminals' : (tokenize b).map Token.terminal = before ++ (tail' ++ after))
    (h : DerivesTail tail arguments redirections) (h' : DerivesTail tail' arguments redirections)
    (hbefore : EndsInWord before) : ∃ program, parse b = .ok program := by
  obtain ⟨program, hparse⟩ := ha
  have hnone := firstFault_eq_none_of_parse hparse
  obtain ⟨front, behind, htokens, hfront, hbehind⟩ := List.map_eq_append_iff.1 hterminals
  obtain ⟨tokens, rest, rfl, htail, hrest⟩ := List.map_eq_append_iff.1 hbehind
  obtain ⟨front', behind', htokens', hfront', hbehind'⟩ := List.map_eq_append_iff.1 hterminals'
  obtain ⟨tokens', rest', rfl, htail', hrest'⟩ := List.map_eq_append_iff.1 hbehind'
  apply exists_parse_of_firstFault_eq_none
  rw [htokens, List.append_assoc, List.append_assoc,
    h.firstFault_append htail (hfront ▸ hbefore)] at hnone
  rw [htokens', List.append_assoc, List.append_assoc,
    h'.firstFault_append htail' (hfront' ▸ hbefore)]
  refine firstFault_eq_none_congr rfl ?_ hnone
  have hend : (endOfInput a).terminal = (endOfInput b).terminal := rfl
  simp only [List.map_append, List.map_singleton, hfront, hfront', hrest, hrest', hend]

/-- Two texts that are programs are the same program exactly if they have the same control
operators, and between them the same words and the same redirections. The words and redirections
behind a name can be mixed in any way. -/
theorem parse_eq_iff_outline (a b : String) (ha : ∃ program, parse a = .ok program) :
    ((∃ program, parse b = .ok program) →
      (parse a = parse b ↔
        (outlineOf a).controls = (outlineOf b).controls ∧
          (outlineOf a).parts = (outlineOf b).parts)) ∧
    ∀ before tail tail' after arguments redirections,
      (tokenize a).map Token.terminal = before ++ (tail ++ after) →
      (tokenize b).map Token.terminal = before ++ (tail' ++ after) →
      DerivesTail tail arguments redirections → DerivesTail tail' arguments redirections →
      EndsInWord before → parse a = parse b := by
  have hiff : (∃ program, parse b = .ok program) →
      (parse a = parse b ↔ outlineOf a = outlineOf b) := by
    rintro ⟨q, hq⟩
    obtain ⟨p, hp⟩ := ha
    rw [hp, hq, outlineOf_eq_of_parse hp, outlineOf_eq_of_parse hq]
    refine ⟨fun h ↦ congrArg Program.outline (Except.ok.inj h), fun h ↦ congrArg Except.ok ?_⟩
    exact (Program.Canonical.of_parse hp).eq_of_outline_eq (Program.Canonical.of_parse hq) h
  refine ⟨fun hb ↦ (hiff hb).trans Outline.ext_iff, ?_⟩
  intro before tail tail' after arguments redirections hterminals hterminals' h h' hbefore
  have hb := exists_parse_of_mixed ha hterminals hterminals' h h' hbefore
  rw [hiff hb, outlineOf, outlineOf, hterminals, hterminals']
  exact outline_append_congr h h' hbefore.settled after

theorem parse_eq_iff_outline_of_moved :
    parse "x >y a | b;" = parse "x\r\na> y|b\t;" ∧ parse "x 2>y" ≠ parse "x 2 >y" := by
  have ha : parse "x >y a | b;" = .ok ⟨[.terminated .semicolon
      (.pipe (.simple ⟨"x", ["a"], [⟨none, .write, "y"⟩]⟩) (.simple ⟨"b", [], []⟩))]⟩ := by
    decide +kernel
  have hc : parse "x 2>y" = .ok ⟨[.simple ⟨"x", [], [⟨some 2, .write, "y"⟩]⟩]⟩ := by
    decide +kernel
  have hd : parse "x 2 >y" = .ok ⟨[.simple ⟨"x", ["2"], [⟨none, .write, "y"⟩]⟩]⟩ := by
    decide +kernel
  have hmoved := (parse_eq_iff_outline _ "x\r\na> y|b\t;" ⟨_, ha⟩).2
  have hapart := (parse_eq_iff_outline _ _ ⟨_, hc⟩).1 ⟨_, hd⟩
  constructor
  · refine hmoved [⟨.word, "x"⟩] ([.redirection .write, ⟨.word, "y"⟩] ++ [⟨.word, "a"⟩])
      [⟨.word, "a"⟩, .redirection .write, ⟨.word, "y"⟩]
      [.control .pipe, ⟨.word, "b"⟩, .control (.separator .semicolon)] ["a"]
      [⟨none, .write, "y"⟩] (by decide +kernel) (by decide +kernel) ?_ ?_ ⟨_, rfl, rfl⟩
    · exact .redirection (.plain .write rfl) (.argument rfl .nil)
    · exact .argument rfl (.redirection (.plain .write rfl) .nil)
  · intro hsame
    have hparts := (hapart.1 hsame).2
    revert hparts
    decide +kernel

end ShellLine
