import ShellLine.Proofs.Grammar.Parsing

/-!
# Every round of a reader takes a token

Where tokens are left, each level either fails or takes some of them, and it stops in front
of an operator that binds looser than its own. At the end of the tokens, and only there, it
gives nothing.

The loops of the levels are written here as what one round makes of a state. From the
contract of the level below, a round that is followed by another has taken a token. So the
tokens ahead bound the rounds, and a loop ends with the result of the reader it belongs to.
The last level leaves nothing, which bounds the rounds over sequences by one.
-/

namespace ShellLine.Grammar

/-! ## What a level promises -/

/-- The tokens begin with at least one that is taken, and the others are left. -/
def Takes (tokens rest : List Token) : Prop :=
  ∃ taken, taken ≠ [] ∧ tokens = taken ++ rest

/-- How a level treats some tokens, from which it reads up to operators of a certain sort. When it
gives nothing, nothing is left that it could have taken. -/
structure Promises (reader : Reader Node) (follow : ControlOperator → Prop)
    (tokens : List Token) : Prop where
  eq_none_iff : reader.read tokens = .ok none ↔ tokens = []
  takes : ∀ {node : Node} {rest : List Token},
    reader.read tokens = .ok (some (node, rest)) → Takes tokens rest ∧ StopsAt follow rest

section Levels

variable {tokens rest : List Token} {reader : Reader Node} {p q : ControlOperator → Prop}

theorem Takes.of_append {taken : List Token} (h : tokens = taken ++ rest)
    (hlt : rest.length < tokens.length) : Takes tokens rest := by
  refine ⟨taken, ?_, h⟩
  rintro rfl
  rw [h, List.nil_append] at hlt
  exact absurd hlt (Nat.lt_irrefl _)

theorem Takes.length_lt (h : Takes tokens rest) : rest.length < tokens.length := by
  obtain ⟨taken, htaken, rfl⟩ := h
  have hpos := List.length_pos_iff.2 htaken
  rw [List.length_append]
  omega

theorem Takes.wellFormed (h : Takes tokens rest) (hformed : WellFormed tokens) :
    WellFormed rest := by
  obtain ⟨taken, -, rfl⟩ := h
  exact hformed.of_append

theorem Takes.cons (token : Token) (h : Takes tokens rest) : Takes (token :: tokens) rest := by
  obtain ⟨taken, -, rfl⟩ := h
  exact ⟨token :: taken, List.cons_ne_nil _ _, rfl⟩

theorem takes_cons (token : Token) (rest : List Token) : Takes (token :: rest) rest :=
  ⟨[token], List.cons_ne_nil _ _, rfl⟩

theorem Promises.mono (h : Promises reader p tokens) (himp : ∀ op, p op → q op) :
    Promises reader q tokens where
  eq_none_iff := h.eq_none_iff
  takes hread := ⟨(h.takes hread).1, (h.takes hread).2.mono himp⟩

/-- A reader that reads what is derived takes the tokens of the derivation. -/
theorem Reads.promises {Derives : List Terminal → Node → Prop} (hreads : Reads reader Derives p)
    (hformed : WellFormed tokens) : Promises reader p tokens where
  eq_none_iff := hreads.eq_none_iff
  takes hread := by
    obtain ⟨taken, htokens, -, hstops⟩ := hreads.sound hformed hread
    exact ⟨.of_append htokens (reader.length_rest_lt hread), hstops⟩

theorem promises_pipeline (hformed : WellFormed tokens) :
    Promises pipeline (· ≠ .pipe) tokens := by
  apply (reads_pipeline.promises hformed).mono
  rintro op hlevel rfl
  exact hlevel rfl

theorem promises_conditional (hformed : WellFormed tokens) :
    Promises conditional (fun op ↦ ∃ separator, op = .separator separator) tokens := by
  apply (reads_conditional.promises hformed).mono
  intro op hlevel
  cases op with
  | separator separator => exact ⟨separator, rfl⟩
  | conditional op => cases hlevel
  | pipe => cases hlevel

/-- No operator stops a sequence, which takes all tokens. -/
theorem promises_sequence (hformed : WellFormed tokens) :
    Promises sequence (fun _ ↦ False) tokens where
  eq_none_iff := readChain_eq_none_iff reads_conditional
  takes {node rest} hread := by
    have hrest : rest = [] := (sequence_sound hformed hread).2
    have hlt := sequence.length_rest_lt hread
    rw [hrest] at hlt ⊢
    exact ⟨.of_append (List.append_nil tokens).symm hlt, trivial⟩

end Levels

/-! ## Loops -/

/-- One round of a loop makes another state of a state, or fails. It gives nothing where the loop is
over. -/
structure Loop (σ : Type) where
  ahead : σ → List Token
  round : σ → Except Failure (Option σ)

namespace Loop

variable {σ : Type} {loop : Loop σ} {state next : σ} {result : Except Failure σ}

/-- The loop ends after a number of rounds. A round that fails is the last one. -/
inductive Ends (loop : Loop σ) : Nat → σ → Except Failure σ → Prop
  | stops {state : σ} (h : loop.round state = .ok none) : Ends loop 0 state (.ok state)
  | fails {state : σ} {failure : Failure} (h : loop.round state = .error failure) :
      Ends loop 1 state (.error failure)
  | again {rounds : Nat} {state next : σ} {result : Except Failure σ}
      (h : loop.round state = .ok (some next)) (behind : Ends loop rounds next result) :
      Ends loop (rounds + 1) state result

/-- What a function gives for a state when it has one round behind it. -/
def resume (loop : Loop σ) (f : σ → Except Failure σ) (state : σ) : Except Failure σ :=
  match loop.round state with
  | .error failure => .error failure
  | .ok none => .ok state
  | .ok (some next) => f next

/-- A loop that cannot stand still: a round needs tokens, and takes some when another follows. -/
structure Progresses (loop : Loop σ) : Prop where
  stops_of_nil : ∀ {state : σ}, loop.ahead state = [] → loop.round state = .ok none
  takes : ∀ {state next : σ}, WellFormed (loop.ahead state) →
    loop.round state = .ok (some next) → Takes (loop.ahead state) (loop.ahead next)

/-- A round takes a token if another one follows it, and the loop ends with the result after at most
as many rounds as there are tokens ahead. -/
structure Advances (loop : Loop σ) (state : σ) (result : Except Failure σ) : Prop where
  takes : ∀ {next : σ}, loop.round state = .ok (some next) →
    Takes (loop.ahead state) (loop.ahead next)
  ends : ∃ rounds ≤ (loop.ahead state).length, loop.Ends rounds state result

/-- What one round does is done by the whole loop: the induction is on the tokens ahead, of which
every round leaves fewer. -/
theorem Progresses.exists_ends (h : loop.Progresses) {f : σ → Except Failure σ}
    (hf : ∀ state, f state = loop.resume f state) (hformed : WellFormed (loop.ahead state)) :
    ∃ rounds ≤ (loop.ahead state).length, loop.Ends rounds state (f state) := by
  induction hlength : (loop.ahead state).length using Nat.strongRecOn
    generalizing state with
  | _ length ih =>
    subst hlength
    rw [hf, resume]
    cases hround : loop.round state with
    | error failure =>
      have hahead : loop.ahead state ≠ [] := by
        intro hnil
        rw [h.stops_of_nil hnil] at hround
        cases hround
      exact ⟨1, List.length_pos_iff.2 hahead, .fails hround⟩
    | ok found =>
      cases found with
      | none => exact ⟨0, Nat.zero_le _, .stops hround⟩
      | some next =>
        have htakes := h.takes hformed hround
        obtain ⟨rounds, hrounds, hends⟩ :=
          ih _ htakes.length_lt (htakes.wellFormed hformed) rfl
        exact ⟨rounds + 1, Nat.lt_of_le_of_lt hrounds htakes.length_lt, .again hround hends⟩

theorem Progresses.advances (h : loop.Progresses) {f : σ → Except Failure σ}
    (hf : ∀ state, f state = loop.resume f state) (hformed : WellFormed (loop.ahead state)) :
    loop.Advances state (f state) where
  takes := h.takes hformed
  ends := h.exists_ends hf hformed

/-- A loop has one result, which is what its function gives. -/
theorem Ends.eq_of_resume {rounds : Nat} {f : σ → Except Failure σ}
    (h : loop.Ends rounds state result) (hf : ∀ state, f state = loop.resume f state) :
    result = f state := by
  induction h with
  | @stops state hround => rw [hf state, resume, hround]
  | @fails state _ hround => rw [hf state, resume, hround]
  | @again _ state _ _ hround _ ih => rw [ih, hf state, resume, hround]

/-- A loop with nothing ahead is over at once. -/
theorem Ends.eq_zero {rounds : Nat} (h : loop.Ends rounds state result) (hp : loop.Progresses)
    (hahead : loop.ahead state = []) : rounds = 0 := by
  have hstops := hp.stops_of_nil hahead
  cases h with
  | stops => rfl
  | fails hround =>
    rw [hstops] at hround
    cases hround
  | again hround =>
    rw [hstops] at hround
    cases hround

end Loop

/-! ## The loop of a command -/

/-- A round adds an argument or a redirection to what has been read. -/
def commandRound (front : CommandTail) : Except Failure (Option CommandTail) :=
  match front.rest with
  | [] => .ok none
  | token :: rest =>
    if token.kind.isArgument then
      .ok (some ⟨front.arguments ++ [token.value], front.redirections, rest⟩)
    else if token.kind.opensRedirection then
      match redirection (token :: rest) with
      | .error failure => .error failure
      | .ok (value, after) => .ok (some ⟨front.arguments, front.redirections ++ [value], after⟩)
    else .ok none

def commandLoop : Loop CommandTail := ⟨CommandTail.rest, commandRound⟩

/-- What has been read of a command, with the arguments and redirections that are still ahead. -/
def commandFrom (front : CommandTail) : Except Failure CommandTail :=
  (commandTail front.rest).map fun tail ↦
    ⟨front.arguments ++ tail.arguments, front.redirections ++ tail.redirections, tail.rest⟩

theorem commandFrom_eq_resume (front : CommandTail) :
    commandFrom front = commandLoop.resume commandFrom front := by
  obtain ⟨arguments, redirections, tokens⟩ := front
  unfold commandFrom
  fun_cases commandTail tokens with
  | case1 => simp [Loop.resume, commandLoop, commandRound, Except.map]
  | case2 token rest hargument =>
    simp only [Loop.resume, commandLoop, commandRound, if_pos hargument]
    cases commandTail rest with
    | error failure => rfl
    | ok tail => simp [Except.map, CommandTail.withArgument]
  | case3 token rest hargument hopens failure hread =>
    simp only [Loop.resume, commandLoop, commandRound, if_neg hargument, if_pos hopens, hread]
    rfl
  | case4 token rest hargument hopens value after hread =>
    simp only [Loop.resume, commandLoop, commandRound, if_neg hargument, if_pos hopens, hread]
    cases commandTail after with
    | error failure => rfl
    | ok tail => simp [Except.map, CommandTail.withRedirection]
  | case5 token rest hargument hopens =>
    simp only [Loop.resume, commandLoop, commandRound, if_neg hargument, if_neg hopens]
    simp [Except.map]

/-- Only an argument or a redirection leads to another round. -/
theorem exists_of_commandRound {front next : CommandTail}
    (h : commandRound front = .ok (some next)) :
    ∃ token rest, front.rest = token :: rest ∧
      (next.rest = rest ∨ ∃ value, redirection (token :: rest) = .ok (value, next.rest)) := by
  unfold commandRound at h
  split at h
  · cases h
  · next token rest hahead =>
    refine ⟨token, rest, hahead, ?_⟩
    split at h
    · cases h
      exact .inl rfl
    · split at h
      · split at h
        · cases h
        · next value after hread =>
          cases h
          exact .inr ⟨value, hread⟩
      · cases h

theorem progresses_commandLoop : commandLoop.Progresses where
  stops_of_nil {front} h := by
    change front.rest = [] at h
    simp only [commandLoop, commandRound, h]
  takes {front next} hformed hround := by
    obtain ⟨token, rest, hahead, hrest | ⟨value, hread⟩⟩ := exists_of_commandRound hround
    · change Takes front.rest next.rest
      rw [hahead, hrest]
      exact takes_cons token rest
    · change WellFormed front.rest at hformed
      change Takes front.rest next.rest
      rw [hahead] at hformed ⊢
      obtain ⟨taken, htokens, -⟩ := redirection_sound hformed hread
      exact .of_append htokens (length_rest_lt_of_redirection hread)

/-! ## The loops of the levels -/

/-- A round joins an operand, or closes the chain with an operator that needs none. -/
def chainRound (level : Level) (operand : Reader Node) :
    Node × List Token → Except Failure (Option (Node × List Token))
  | (_, []) => .ok none
  | (lhs, token :: rest) =>
    match token.kind with
    | .control op =>
      if op.level = level then
        match controlAhead? rest with
        | some found => .error ⟨.operatorAfterOperator token.value found.value, rest⟩
        | none =>
          match operand.read rest with
          | .error failure => .error failure
          | .ok (some (rhs, after)) => .ok (some (op.join lhs rhs, after))
          | .ok none =>
            match op.close? lhs with
            | some node => .ok (some (node, rest))
            | none => .error ⟨.endAfterOperator token.value, rest⟩
      else .ok none
    | _ => .ok none

def chainLoop (level : Level) (operand : Reader Node) : Loop (Node × List Token) :=
  ⟨Prod.snd, chainRound level operand⟩

section Chain

variable {level : Level} {operand : Reader Node}

theorem chainFrom_eq_resume
    (hnone : ∀ {tokens : List Token}, operand.read tokens = .ok none ↔ tokens = [])
    (state : Node × List Token) :
    chainFrom level operand state.1 state.2 =
      (chainLoop level operand).resume (fun next ↦ chainFrom level operand next.1 next.2)
        state := by
  obtain ⟨lhs, tokens⟩ := state
  fun_cases chainFrom level operand lhs tokens with
  | case1 => rfl
  | case2 token rest op hop hlevel found hahead =>
    simp only [Loop.resume, chainLoop, chainRound, hop, if_pos hlevel, hahead]
  | case3 token rest op hop hlevel hahead failure hread =>
    simp only [Loop.resume, chainLoop, chainRound, hop, if_pos hlevel, hahead, hread]
  | case4 token rest op hop hlevel hahead rhs after hread =>
    simp only [Loop.resume, chainLoop, chainRound, hop, if_pos hlevel, hahead, hread]
  | case5 token rest op hop hlevel hahead hread node hclose =>
    simp only [Loop.resume, chainLoop, chainRound, hop, if_pos hlevel, hahead, hread, hclose]
    rw [hnone.1 hread, chainFrom]
  | case6 token rest op hop hlevel hahead hread hclose =>
    simp only [Loop.resume, chainLoop, chainRound, hop, if_pos hlevel, hahead, hread, hclose]
  | case7 token rest op hop hlevel =>
    simp only [Loop.resume, chainLoop, chainRound, hop, if_neg hlevel]
  | case8 token rest hkind =>
    simp only [Loop.resume, chainLoop, chainRound]

/-- Only an operator leads to another round. It comes with an operand, or closes the chain. -/
theorem exists_of_chainRound {lhs : Node} {tokens : List Token} {next : Node × List Token}
    (h : chainRound level operand (lhs, tokens) = .ok (some next)) :
    ∃ token rest, tokens = token :: rest ∧
      ((∃ rhs, operand.read rest = .ok (some (rhs, next.2))) ∨ next.2 = rest) := by
  unfold chainRound at h
  split at h
  · cases h
  · next lhs' token rest heq =>
    cases heq
    split at h
    · split at h
      · split at h
        · cases h
        · split at h
          · cases h
          · next rhs after hread =>
            cases h
            exact ⟨token, rest, rfl, .inl ⟨rhs, hread⟩⟩
          · split at h
            · cases h
              exact ⟨token, rest, rfl, .inr rfl⟩
            · cases h
      · cases h
    · cases h

/-- A round takes an operator, and then what its operand takes. -/
theorem progresses_chainLoop {p : ControlOperator → Prop}
    (hoperand : ∀ {tokens : List Token}, WellFormed tokens → Promises operand p tokens) :
    (chainLoop level operand).Progresses where
  stops_of_nil {state} h := by
    obtain ⟨lhs, tokens⟩ := state
    obtain rfl : tokens = [] := h
    rfl
  takes {state next} hformed hround := by
    obtain ⟨lhs, tokens⟩ := state
    obtain ⟨token, rest, rfl, ⟨rhs, hread⟩ | hclosed⟩ := exists_of_chainRound hround
    · have htakes := ((hoperand hformed.2.2).takes hread).1
      exact htakes.cons token
    · change Takes (token :: rest) next.2
      rw [hclosed]
      exact takes_cons token rest

end Chain

/-! ## The loop of a program -/

/-- A round adds a sequence to those that have been read. -/
def programRound : List Node × List Token → Except Failure (Option (List Node × List Token))
  | (_, []) => .ok none
  | (front, token :: rest) =>
    match sequence.read (token :: rest) with
    | .error failure => .error failure
    | .ok none => .ok none
    | .ok (some (node, after)) => .ok (some (front ++ [node], after))

def programLoop : Loop (List Node × List Token) := ⟨Prod.snd, programRound⟩

/-- The sequences that have been read, with those that are still ahead. -/
def programFrom (state : List Node × List Token) : Except Failure (List Node × List Token) :=
  (nodes state.2).map fun behind ↦ (state.1 ++ behind, [])

theorem programFrom_eq_resume (state : List Node × List Token) :
    programFrom state = programLoop.resume programFrom state := by
  obtain ⟨front, tokens⟩ := state
  cases tokens with
  | nil => simp [programFrom, Loop.resume, programLoop, programRound, nodes_nil, Except.map]
  | cons token rest =>
    unfold programFrom
    fun_cases nodes (token :: rest) with
    | case1 failure hread =>
      simp only [Loop.resume, programLoop, programRound, hread]
      rfl
    | case2 hread =>
      have hnil := (readChain_eq_none_iff reads_conditional).1 hread
      cases hnil
    | case3 node after hread =>
      simp only [Loop.resume, programLoop, programRound, hread]
      cases nodes after with
      | error failure => rfl
      | ok behind => simp [Except.map]

/-- Only a sequence leads to another round. -/
theorem exists_of_programRound {front : List Node} {tokens : List Token}
    {next : List Node × List Token} (h : programRound (front, tokens) = .ok (some next)) :
    ∃ node, sequence.read tokens = .ok (some (node, next.2)) := by
  unfold programRound at h
  split at h
  · cases h
  · next token rest heq =>
    cases heq
    split at h
    · cases h
    · cases h
    · next node after hread =>
      cases h
      exact ⟨node, hread⟩

theorem progresses_programLoop : programLoop.Progresses where
  stops_of_nil {state} h := by
    obtain ⟨front, tokens⟩ := state
    obtain rfl : tokens = [] := h
    rfl
  takes {state next} hformed hround := by
    obtain ⟨front, tokens⟩ := state
    obtain ⟨node, hread⟩ := exists_of_programRound hround
    exact ((promises_sequence hformed).takes hread).1

/-- A sequence leaves nothing, so that a second round over sequences is never made. -/
theorem rounds_le_one_of_ends {front : List Node} {tokens : List Token} {rounds : Nat}
    {result : Except Failure (List Node × List Token)} (hformed : WellFormed tokens)
    (h : programLoop.Ends rounds (front, tokens) result) : rounds ≤ 1 := by
  cases h with
  | stops => exact Nat.zero_le 1
  | fails => exact Nat.le_refl 1
  | @again behind _ next _ hround hbehind =>
    obtain ⟨node, hread⟩ := exists_of_programRound hround
    have hnil : next.2 = [] := (sequence_sound hformed hread).2
    have hzero := hbehind.eq_zero progresses_programLoop hnil
    exact Nat.succ_le_succ (Nat.le_of_eq hzero)

/-! ## Every place of a text -/

/-- What holds of the levels and of their loops where some tokens are ahead. -/
structure Descends (tokens : List Token) : Prop where
  command : Promises command (fun _ ↦ True) tokens
  pipeline : Promises pipeline (· ≠ .pipe) tokens
  conditional : Promises conditional (fun op ↦ ∃ separator, op = .separator separator) tokens
  sequence : Promises sequence (fun _ ↦ False) tokens
  commandLoop : ∀ arguments redirections,
    commandLoop.Advances ⟨arguments, redirections, tokens⟩
      (commandFrom ⟨arguments, redirections, tokens⟩)
  pipelineLoop : ∀ lhs, (chainLoop .pipeline Grammar.command).Advances (lhs, tokens)
    (chainFrom .pipeline Grammar.command lhs tokens)
  conditionalLoop : ∀ lhs, (chainLoop .conditional Grammar.pipeline).Advances (lhs, tokens)
    (chainFrom .conditional Grammar.pipeline lhs tokens)
  sequenceLoop : ∀ lhs, (chainLoop .sequence Grammar.conditional).Advances (lhs, tokens)
    (chainFrom .sequence Grammar.conditional lhs tokens)
  programLoop : ∀ front, programLoop.Advances (front, tokens) (programFrom (front, tokens))

/-- The loop of a level advances when the level below keeps its promises. -/
theorem advances_chainLoop {level : Level} {operand : Reader Node}
    {Derives : List Terminal → Node → Prop} {p : ControlOperator → Prop}
    (hreads : Reads operand Derives p) {tokens : List Token} (hformed : WellFormed tokens)
    (lhs : Node) :
    (chainLoop level operand).Advances (lhs, tokens) (chainFrom level operand lhs tokens) := by
  have hahead : WellFormed ((chainLoop level operand).ahead (lhs, tokens)) := hformed
  exact (progresses_chainLoop hreads.promises).advances
    (chainFrom_eq_resume hreads.eq_none_iff) hahead

theorem descends_of_wellFormed {tokens : List Token} (hformed : WellFormed tokens) :
    Descends tokens where
  command := reads_command.promises hformed
  pipeline := promises_pipeline hformed
  conditional := promises_conditional hformed
  sequence := promises_sequence hformed
  commandLoop _ _ := progresses_commandLoop.advances commandFrom_eq_resume hformed
  pipelineLoop := advances_chainLoop reads_command hformed
  conditionalLoop := advances_chainLoop reads_pipeline hformed
  sequenceLoop := advances_chainLoop reads_conditional hformed
  programLoop _ := progresses_programLoop.advances programFrom_eq_resume hformed

/-- At every place of a text the levels keep their promises and the loops advance. The loop over
sequences makes at most one round over the whole text, and gives what is read of the text or the
failure to read it. -/
theorem tokenize_descends (text : String) :
    (∀ tokens, tokens <:+ tokenize text → Descends tokens) ∧
      ∀ rounds result, programLoop.Ends rounds ([], tokenize text) result →
        rounds ≤ 1 ∧ result = (nodes (tokenize text)).map (·, []) := by
  have hformed := wellFormed_tokenize text
  constructor
  · rintro tokens ⟨before, htokens⟩
    rw [← htokens] at hformed
    exact descends_of_wellFormed hformed.of_append
  · intro rounds result hends
    exact ⟨rounds_le_one_of_ends hformed hends, hends.eq_of_resume programFrom_eq_resume⟩

theorem tokenize_descends_behind_pipe :
    (tokenize "a|b 2>x;").drop 2 <:+ tokenize "a|b 2>x;" ∧
    Descends ((tokenize "a|b 2>x;").drop 2) ∧
    ∃ result, programLoop.Ends 1 ([], tokenize "a|b 2>x;") result ∧
      result = (nodes (tokenize "a|b 2>x;")).map (·, []) := by
  let node : Node := .terminated .semicolon
    (.pipe (.simple ⟨"a", [], []⟩) (.simple ⟨"b", [], [⟨some 2, .write, "x"⟩]⟩))
  have hround : programLoop.round ([], tokenize "a|b 2>x;") = .ok (some ([node], [])) := by
    decide +kernel
  have hends : programLoop.Ends 1 ([], tokenize "a|b 2>x;") (.ok ([node], [])) :=
    .again hround (.stops rfl)
  have hsuffix : (tokenize "a|b 2>x;").drop 2 <:+ tokenize "a|b 2>x;" := List.drop_suffix ..
  obtain ⟨hplaces, hprogram⟩ := tokenize_descends "a|b 2>x;"
  exact ⟨hsuffix, hplaces _ hsuffix, _, hends, (hprogram _ _ hends).2⟩

end ShellLine.Grammar
