import ShellLine.Proofs.Grammar.Parsing

/-!
# Failures are pairs of neighbours

Whether a token is at fault is told by the token in front of it. A text that is no
program fails at its first token with a fault, for the reason that this pair
gives, no matter at which level the reader stands. The readers are followed step
by step: where one of them is done, the rest of the scan does not depend on what
it has read.
-/

namespace ShellLine.Grammar

open ParseError (Cause)

/-! ## Faults -/

/-- The fault of a token where a command has to begin, behind an operator or in front of all. -/
def openingFault (operator : Option Token) (token : Token) : Option Cause :=
  match token.kind, operator with
  | .word, _ => none
  | .reserved .functionWord, _ => some (.unsupported "function definition")
  | .reserved _, _ => some (.unsupported ("`" ++ token.value ++ "` compound command"))
  | .control _, some operator => some (.operatorAfterOperator operator.value token.value)
  | .eof, none => none
  | .eof, some operator =>
    match operator.kind with
    | .control (.separator _) => none
    | _ => some (.endAfterOperator operator.value)
  | _, _ => some (.unexpectedToken token.value)

/-- The fault of a token behind another one, or in front of all. -/
def fault (previous : Option Token) (token : Token) : Option Cause :=
  match previous with
  | none => openingFault none token
  | some before =>
    match before.kind with
    | .control _ => openingFault (some before) token
    | .redirection _ =>
      if token.kind.isArgument then none else some (.missingTarget before.value)
    | _ => none

/-- The first token with a fault. Only the token in front of it is remembered. -/
def firstFault (previous : Option Token) : List Token → Option (Cause × Token)
  | [] => none
  | token :: rest =>
    match fault previous token with
    | some cause => some (cause, token)
    | none => firstFault (some token) rest

/-- The first token with a fault behind the front one. -/
def laterFault : List Token → Option (Cause × Token)
  | [] => none
  | token :: rest => firstFault (some token) rest

theorem firstFault_of_eq_none {previous : Option Token} {token : Token} (rest : List Token)
    (h : fault previous token = none) :
    firstFault previous (token :: rest) = laterFault (token :: rest) := by
  rw [firstFault, h]
  rfl

theorem firstFault_of_eq_some {previous : Option Token} {token : Token} {cause : Cause}
    (rest : List Token) (h : fault previous token = some cause) :
    firstFault previous (token :: rest) = some (cause, token) := by
  rw [firstFault, h]

/-- Behind a word or a number any token may stand. -/
theorem laterFault_cons {token : Token} (rest : List Token)
    (h : token.kind.isArgument = true ∨ token.kind = .ioNumber) :
    laterFault (token :: rest) = laterFault rest := by
  cases rest with
  | nil => rfl
  | cons next rest =>
    have hnone : fault (some token) next = none := by
      unfold fault
      cases hkind : token.kind <;> simp_all [Token.Kind.isArgument]
    exact firstFault_of_eq_none rest hnone

/-! ## Readers and the scan -/

variable {α β : Type} {stop : Token}

/-- A result agrees with a scan that goes on behind what was read, or ends where it failed. -/
def Agrees (stop : Token) (rest : α → List Token) (scanned : Option (Cause × Token)) :
    Except Failure α → Prop
  | .ok value => scanned = laterFault (rest value ++ [stop])
  | .error failure => scanned = some (failure.cause, failure.rest.headD stop)

theorem Agrees.map {rest : α → List Token} {rest' : β → List Token}
    {scanned : Option (Cause × Token)} {result : Except Failure α}
    (h : Agrees stop rest scanned result) (f : α → β)
    (hrest : ∀ value, rest' (f value) = rest value) :
    Agrees stop rest' scanned (result.map f) := by
  cases result with
  | error failure => exact h
  | ok value =>
    change scanned = laterFault (rest' (f value) ++ [stop])
    rw [hrest]
    exact h

theorem agrees_target {descriptor : Option UInt32} {op : RedirectionOperator} {opener : Token}
    (hop : opener.kind = .redirection op) (tokens : List Token) (hstop : stop.kind = .eof) :
    Agrees stop Prod.snd (laterFault (opener :: tokens ++ [stop]))
      (target descriptor op opener.value tokens) := by
  cases tokens with
  | nil =>
    apply firstFault_of_eq_some
    simp [fault, hop, hstop, Token.Kind.isArgument]
  | cons token rest =>
    unfold target
    by_cases hargument : token.kind.isArgument = true
    · have hnone : fault (some opener) token = none := by
        simp [fault, hop, hargument]
      have hcut := laterFault_cons (rest ++ [stop]) (.inl hargument)
      simp only [if_pos hargument]
      exact (firstFault_of_eq_none (rest ++ [stop]) hnone).trans hcut
    · simp only [if_neg hargument]
      apply firstFault_of_eq_some
      simp [fault, hop, hargument]

/-- The operator behind a number is never missing, so no redirection fails without one. -/
theorem agrees_redirection {token : Token} {rest : List Token}
    (hformed : WellFormed (token :: rest)) (hopens : token.kind.opensRedirection = true)
    (hstop : stop.kind = .eof) :
    Agrees stop Prod.snd (laterFault (token :: rest ++ [stop])) (redirection (token :: rest)) := by
  unfold redirection
  rcases Token.Kind.opensRedirection_iff.1 hopens with hkind | ⟨op, hkind⟩
  · obtain ⟨op, next, more, rfl, hop⟩ := hformed.2.1 hkind
    rw [List.cons_append, laterFault_cons _ (.inr hkind)]
    simp only [if_pos hkind, attachment, hop]
    exact agrees_target hop more hstop
  · simp only [hkind, reduceCtorEq, if_false, attachment]
    exact agrees_target hkind rest hstop

theorem agrees_commandTail {tokens : List Token} (hformed : WellFormed tokens)
    (hstop : stop.kind = .eof) :
    Agrees stop CommandTail.rest (laterFault (tokens ++ [stop])) (commandTail tokens) := by
  fun_induction commandTail tokens with
  | case1 => rfl
  | case2 token rest hargument ih =>
    rw [List.cons_append, laterFault_cons _ (.inl hargument)]
    exact (ih hformed.2.2).map _ fun tail ↦ rfl
  | case3 token rest _ hopens failure hread =>
    have hagrees := agrees_redirection hformed hopens hstop
    rw [hread] at hagrees
    exact hagrees
  | case4 token rest _ hopens value after hread ih =>
    have hagrees := agrees_redirection hformed hopens hstop
    rw [hread] at hagrees
    obtain ⟨read, htokens, -⟩ := redirection_sound hformed hread
    rw [htokens] at hformed
    rw [hagrees]
    exact (ih hformed.of_append).map _ fun tail ↦ rfl
  | case5 => rfl

/-- A command has to begin: in front of all, or behind an operator that no other one follows. -/
def Opens (previous : Option Token) (tokens : List Token) : Prop :=
  previous = none ∨
    ∃ token op, previous = some token ∧ token.kind = .control op ∧ controlAhead? tokens = none

theorem fault_of_opens {previous : Option Token} {tokens : List Token}
    (h : Opens previous tokens) (token : Token) :
    fault previous token = openingFault previous token := by
  rcases h with rfl | ⟨before, op, rfl, hop, -⟩
  · rfl
  · simp only [fault, hop]

/-- What is left where a reader of commands is done. -/
def leftOver (read : Option (Node × List Token)) : List Token :=
  (read.map Prod.snd).getD []

/-- The reader and the scan agree wherever a command has to begin. -/
def FollowsScan (stop : Token) (reader : Reader Node) : Prop :=
  ∀ ⦃previous : Option Token⦄ ⦃token : Token⦄ ⦃rest : List Token⦄,
    WellFormed (token :: rest) → Opens previous (token :: rest) →
      Agrees stop leftOver (firstFault previous (token :: rest ++ [stop]))
        (reader.read (token :: rest))

theorem followsScan_command (hstop : stop.kind = .eof) : FollowsScan stop command := by
  intro previous token rest hformed hopens
  have hfault := fault_of_opens hopens token
  have hfail : ∀ cause, openingFault previous token = some cause →
      firstFault previous (token :: rest ++ [stop]) = some (cause, token) := by
    intro cause hcause
    exact firstFault_of_eq_some _ (hfault.trans hcause)
  rw [read_command, readCommand]
  cases hkind : token.kind with
  | word =>
    have hnone : openingFault previous token = none := by
      simp [openingFault, hkind]
    have hargument : token.kind.isArgument = true := by
      rw [hkind]
      rfl
    rw [List.cons_append, firstFault_of_eq_none _ (hfault.trans hnone),
      laterFault_cons _ (.inl hargument)]
    exact (agrees_commandTail hformed.2.2 hstop).map _ fun tail ↦ rfl
  | reserved w =>
    by_cases hw : w = .functionWord
    · subst hw
      apply hfail
      simp [openingFault, hkind]
    · simp only
      apply hfail
      simp [openingFault, hkind]
  | control op =>
    -- Behind an operator a second one has been refused before.
    rcases hopens with rfl | ⟨before, op', -, -, hahead⟩
    · apply hfail
      simp [openingFault, hkind]
    · simp [controlAhead?, hkind, Token.Kind.isControl] at hahead
  | redirection op =>
    apply hfail
    simp [openingFault, hkind]
  | ioNumber =>
    apply hfail
    simp [openingFault, hkind]
  | eof => exact absurd hkind hformed.1.kind_ne_eof

theorem exists_of_controlAhead?_eq_some {tokens : List Token} {found : Token}
    (h : controlAhead? tokens = some found) :
    ∃ op rest, tokens = found :: rest ∧ found.kind = .control op := by
  unfold controlAhead? at h
  split at h
  · cases h
  · next token rest =>
    split at h
    · next hcontrol =>
      obtain rfl : token = found := Option.some.inj h
      obtain ⟨op, hop⟩ := Token.Kind.isControl_iff.1 hcontrol
      exact ⟨op, rest, rfl, hop⟩
    · cases h

section Chain

variable {level : Level} {operand : Reader Node} {Derives : List Terminal → Node → Prop}
  {p : ControlOperator → Prop}

/-- Each error of a chain names the operator directly in front of the failure. -/
theorem agrees_chainFrom (hreads : Reads operand Derives p) (hfollows : FollowsScan stop operand)
    (hstop : stop.kind = .eof) {lhs : Node} {tokens : List Token} (hformed : WellFormed tokens) :
    Agrees stop Prod.snd (laterFault (tokens ++ [stop]))
      (chainFrom level operand lhs tokens) := by
  fun_induction chainFrom level operand lhs tokens with
  | case1 => rfl
  | case2 lhs token behind op hop _ found hahead =>
    obtain ⟨op', rest, rfl, hop'⟩ := exists_of_controlAhead?_eq_some hahead
    apply firstFault_of_eq_some
    simp only [fault, hop, openingFault, hop']
  | case3 lhs token behind op hop _ hahead failure hread =>
    cases behind with
    | nil =>
      rw [hreads.eq_none_iff.2 rfl] at hread
      cases hread
    | cons next rest =>
      have hagrees := hfollows hformed.2.2 (.inr ⟨token, op, rfl, hop, hahead⟩)
      rw [hread] at hagrees
      exact hagrees
  | case4 lhs token behind op hop _ hahead rhs after hread ih =>
    cases behind with
    | nil =>
      rw [hreads.eq_none_iff.2 rfl] at hread
      cases hread
    | cons next rest =>
      have hagrees := hfollows hformed.2.2 (.inr ⟨token, op, rfl, hop, hahead⟩)
      rw [hread] at hagrees
      obtain ⟨read, hrest, -⟩ := hreads.sound hformed.2.2 hread
      have hafter := hformed.2.2
      rw [hrest] at hafter
      have hscan : laterFault (token :: next :: rest ++ [stop]) = laterFault (after ++ [stop]) :=
        hagrees
      rw [hscan]
      exact ih hafter.of_append
  | case5 lhs token behind op hop _ _ hread node hclose =>
    obtain rfl := hreads.eq_none_iff.1 hread
    apply firstFault_of_eq_none
    cases op with
    | separator op => simp [fault, hop, openingFault, hstop]
    | conditional op => cases hclose
    | pipe => cases hclose
  | case6 lhs token behind op hop _ _ hread hclose =>
    obtain rfl := hreads.eq_none_iff.1 hread
    apply firstFault_of_eq_some
    cases op with
    | separator op => cases hclose
    | conditional op => simp [fault, hop, openingFault, hstop]
    | pipe => simp [fault, hop, openingFault, hstop]
  | case7 => rfl
  | case8 => rfl

theorem followsScan_chain (hreads : Reads operand Derives p) (hfollows : FollowsScan stop operand)
    (hstop : stop.kind = .eof) : FollowsScan stop (chain level operand) := by
  intro previous token rest hformed hopens
  have hagrees := hfollows hformed hopens
  rw [read_chain, readChain]
  cases hread : operand.read (token :: rest) with
  | error failure =>
    rw [hread] at hagrees
    exact hagrees
  | ok read =>
    rw [hread] at hagrees
    cases read with
    | none => exact hagrees
    | some read =>
      obtain ⟨lhs, behind⟩ := read
      obtain ⟨taken, hrest, -⟩ := hreads.sound hformed hread
      rw [hrest] at hformed
      have hscan : firstFault previous (token :: rest ++ [stop]) = laterFault (behind ++ [stop]) :=
        hagrees
      rw [hscan]
      exact (agrees_chainFrom hreads hfollows hstop hformed.of_append).map _ fun joined ↦ rfl

end Chain

theorem followsScan_sequence (hstop : stop.kind = .eof) : FollowsScan stop sequence := by
  have hpipeline : FollowsScan stop pipeline :=
    followsScan_chain reads_command (followsScan_command hstop) hstop
  have hconditional : FollowsScan stop conditional :=
    followsScan_chain reads_pipeline hpipeline hstop
  exact followsScan_chain reads_conditional hconditional hstop

/-- All tokens of an input are read, or the reader fails where the scan does. -/
theorem agrees_nodes {tokens : List Token} (hformed : WellFormed tokens)
    (hstop : stop.kind = .eof) :
    Agrees stop (fun _ ↦ []) (firstFault none (tokens ++ [stop])) (nodes tokens) := by
  cases tokens with
  | nil =>
    rw [nodes_nil]
    apply firstFault_of_eq_none
    simp [fault, openingFault, hstop]
  | cons token rest =>
    have hagrees := followsScan_sequence hstop hformed (.inl (Eq.refl none))
    cases hread : sequence.read (token :: rest) with
    | error failure =>
      rw [hread] at hagrees
      have hnodes : nodes (token :: rest) = .error failure := by
        rw [nodes]
        split <;> simp_all
      rw [hnodes]
      exact hagrees
    | ok read =>
      rw [hread] at hagrees
      cases read with
      | none => cases (readChain_eq_none_iff reads_conditional).1 hread
      | some read =>
        obtain ⟨node, behind⟩ := read
        obtain ⟨-, rfl⟩ := sequence_sound hformed hread
        rw [nodes_of_read hread, nodes_nil]
        exact hagrees

end ShellLine.Grammar

namespace ShellLine

open Grammar

/-- A text is no program exactly when a token of it has a fault. The error gives the cause of the
first one, the place of the token and its line. -/
theorem parse_iff_firstFault (text : String) :
    ((∃ program, parse text = .ok program) ↔
      firstFault none (tokenize text ++ [endOfInput text]) = none) ∧
    ∀ e, parse text = .error e ↔
      ∃ cause token, firstFault none (tokenize text ++ [endOfInput text]) = some (cause, token) ∧
        e = ⟨cause, token.position, Text.sourceLine text token.position.line⟩ := by
  have hend : (endOfInput text).kind = .eof := rfl
  have hagrees := agrees_nodes (wellFormed_tokenize text) hend
  unfold parse
  cases hnodes : nodes (tokenize text) with
  | ok ns =>
    rw [hnodes] at hagrees
    have hnone : firstFault none (tokenize text ++ [endOfInput text]) = none := hagrees
    rw [hnone]
    simp
  | error failure =>
    rw [hnodes] at hagrees
    have hsome : firstFault none (tokenize text ++ [endOfInput text]) =
        some (failure.cause, failure.rest.headD (endOfInput text)) := hagrees
    rw [hsome]
    simp [Failure.locate, eq_comm]

end ShellLine
