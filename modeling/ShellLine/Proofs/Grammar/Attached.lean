import ShellLine.Proofs.Grammar.FaultIndex
import ShellLine.Proofs.Program.Parsed

/-!
# No redirection and no descriptor is lost

The reader of redirections has a failure for a number without an operator behind it, and
drops a number whose digits are too many for a descriptor. Neither happens with the tokens
of a text. So the redirections of a program, from left to right, are the redirection
operators of its text, each with the number directly in front of it, if there is one, and
with the word behind it.
-/

namespace ShellLine

/-! ## Redirections as written -/

/-- An operator with the digits in front of it and the text behind it. -/
structure Redirection.Written where
  number : Option String
  operator : RedirectionOperator
  target : Option String
  deriving DecidableEq

/-- How a text writes a redirection. -/
def Redirection.written (redirection : Redirection) : Redirection.Written :=
  ⟨redirection.descriptor.map fun descriptor ↦ toString descriptor.toNat, redirection.operator,
    some redirection.target⟩

mutual

/-- The redirections in a tree, from left to right. -/
def Node.redirections : Node → List Redirection
  | .sequence _ lhs rhs => lhs.redirections ++ rhs.redirections
  | .terminated _ lhs => lhs.redirections
  | .conditional _ lhs rhs => lhs.redirections ++ rhs.redirections
  | .pipe lhs rhs => lhs.redirections ++ rhs.redirections
  | .simple command => command.redirections
  | .subshell nodes => Node.redirectionsIn nodes

def Node.redirectionsIn : List Node → List Redirection
  | [] => []
  | node :: nodes => node.redirections ++ Node.redirectionsIn nodes

end

def Program.redirections (program : Program) : List Redirection :=
  Node.redirectionsIn program.nodes

namespace Grammar

/-- The digits of a number. -/
def digits? (terminal : Terminal) : Option String :=
  if terminal.kind = .ioNumber then some terminal.value else none

/-- Each redirection operator, with the digits directly in front of it and what is behind it. The
digits in front of the first terminal are given. -/
def writtenRedirections (number : Option String) : List Terminal → List Redirection.Written
  | [] => []
  | terminal :: rest =>
    let others := writtenRedirections (digits? terminal) rest
    match terminal.kind with
    | .redirection op => ⟨number, op, rest.head?.map Terminal.value⟩ :: others
    | _ => others

/-! ## Derived redirections -/

theorem writtenRedirections_control (op : ControlOperator) (rest : List Terminal) :
    writtenRedirections none (.control op :: rest) = writtenRedirections none rest := rfl

theorem writtenRedirections_argument {terminal : Terminal} (h : terminal.kind.isArgument = true)
    (number : Option String) (rest : List Terminal) :
    writtenRedirections number (terminal :: rest) = writtenRedirections none rest := by
  obtain ⟨kind, value⟩ := terminal
  cases kind with
  | word => rfl
  | reserved w => rfl
  | eof => cases h
  | control op => cases h
  | redirection op => cases h
  | ioNumber => cases h

theorem DerivesRedirection.writtenRedirections_append {terminals : List Terminal}
    {redirection : Redirection} (h : DerivesRedirection terminals redirection)
    (rest : List Terminal) :
    writtenRedirections none (terminals ++ rest) =
      redirection.written :: writtenRedirections none rest := by
  cases h with
  | plain op htarget =>
    rw [← writtenRedirections_argument htarget none rest]
    rfl
  | numbered descriptor op htarget =>
    rw [← writtenRedirections_argument htarget none rest]
    rfl

/-- The terminals write these redirections, no matter what stands behind them. -/
def Writes (terminals : List Terminal) (redirections : List Redirection) : Prop :=
  ∀ rest, writtenRedirections none (terminals ++ rest) =
    redirections.map Redirection.written ++ writtenRedirections none rest

variable {terminals left right : List Terminal} {redirections redirections' : List Redirection}

theorem Writes.writtenRedirections_eq (h : Writes terminals redirections) :
    writtenRedirections none terminals = redirections.map Redirection.written := by
  have hwhole := h []
  rw [List.append_nil, writtenRedirections, List.append_nil] at hwhole
  exact hwhole

theorem Writes.argument {terminal : Terminal} (hargument : terminal.kind.isArgument = true)
    (h : Writes terminals redirections) : Writes (terminal :: terminals) redirections := by
  intro rest
  rw [List.cons_append, writtenRedirections_argument hargument]
  exact h rest

theorem Writes.join (op : ControlOperator) (hleft : Writes left redirections)
    (hright : Writes right redirections') :
    Writes (left ++ .control op :: right) (redirections ++ redirections') := by
  intro rest
  rw [List.append_assoc, hleft, List.cons_append, writtenRedirections_control, hright,
    List.map_append, List.append_assoc]

theorem DerivesTail.writes {arguments : List String}
    (h : DerivesTail terminals arguments redirections) : Writes terminals redirections := by
  induction h with
  | nil => exact fun rest ↦ rfl
  | argument hargument _ ih => exact ih.argument hargument
  | redirection hhead _ ih =>
    intro rest
    rw [List.append_assoc, hhead.writtenRedirections_append, ih]
    rfl

theorem redirections_join (op : ControlOperator) (lhs rhs : Node) :
    (op.join lhs rhs).redirections = lhs.redirections ++ rhs.redirections := by
  cases op <;> rfl

theorem DerivesSequence.writes {node : Node} (h : DerivesSequence terminals node) :
    Writes terminals node.redirections := by
  refine h.of_joins (P := fun terminals node ↦ Writes terminals node.redirections) ?_ ?_ ?_
  · intro terminals node hcommand
    cases hcommand with
    | named name htail => exact htail.writes.argument rfl
  · intro op left right lhs rhs hleft hright
    rw [redirections_join]
    exact hleft.join op hright
  · intro op terminals lhs hlhs rest
    rw [List.append_assoc, hlhs]
    rfl

theorem DerivesProgram.writes {program : Program} (h : DerivesProgram terminals program) :
    Writes terminals program.redirections := by
  cases h with
  | empty => exact fun rest ↦ rfl
  | @sequence _ node hsequence =>
    have hnodes : Program.redirections ⟨[node]⟩ = node.redirections := List.append_nil _
    rw [hnodes]
    exact hsequence.writes

/-! ## The reader of redirections -/

/-- The digit of a number in a text is the spelling of its descriptor. -/
theorem exists_descriptor?_eq_some {token : Token} (h : token.terminal.Readable)
    (hnumber : token.kind = .ioNumber) :
    ∃ descriptor, descriptor? token.value = some descriptor ∧ descriptor ≤ 9 ∧
      token.value = toString descriptor.toNat := by
  obtain ⟨c, hc, hdigit⟩ := h.exists_digit hnumber
  obtain ⟨descriptor, hvalue⟩ : ∃ descriptor : UInt32,
      token.value = toString descriptor.toNat := exists_toString_eq hc hdigit
  rw [Token.terminal, hnumber, hvalue] at h
  refine ⟨descriptor, ?_, h.le_nine, hvalue⟩
  rw [hvalue, descriptor?_toString]

/-- The tokens begin with an operator, or with the digit of a descriptor and an operator, and only
the target is still to be read. -/
structure Attaches (tokens : List Token) (number : Option Token) (op : RedirectionOperator)
    (opener : Token) (behind : List Token) : Prop where
  tokens_eq : tokens = number.toList ++ opener :: behind
  kind_eq : opener.kind = .redirection op
  exists_descriptor : ∀ token ∈ number, token.kind = .ioNumber ∧
    ∃ descriptor, descriptor? token.value = some descriptor ∧ descriptor ≤ 9 ∧
      token.value = toString descriptor.toNat
  redirection_eq : redirection tokens =
    target (number.bind fun token ↦ descriptor? token.value) op opener.value behind

theorem exists_attaches {token : Token} {rest : List Token}
    (hformed : WellFormed (token :: rest)) (hopens : token.kind.opensRedirection = true) :
    ∃ number op opener behind, Attaches (token :: rest) number op opener behind := by
  rcases Token.Kind.opensRedirection_iff.1 hopens with hnumber | ⟨op, hop⟩
  · obtain ⟨op, opener, behind, rfl, hop⟩ := hformed.2.1 hnumber
    refine ⟨some token, op, opener, behind, rfl, hop, ?_, ?_⟩
    · rintro _ ⟨⟩
      exact ⟨hnumber, exists_descriptor?_eq_some hformed.1 hnumber⟩
    · rw [redirection, if_pos hnumber, attachment, hop]
      rfl
  · have hplain : token.kind ≠ .ioNumber := by
      intro hnumber
      rw [hop] at hnumber
      cases hnumber
    refine ⟨none, op, token, rest, rfl, hop, ?_, ?_⟩
    · exact fun _ hnone ↦ absurd hnone (Option.not_mem_none _)
    · rw [redirection, if_neg hplain, attachment, hop]
      rfl

theorem Attaches.cause_eq {tokens behind : List Token} {number : Option Token}
    {op : RedirectionOperator} {opener : Token} (h : Attaches tokens number op opener behind)
    {failure : Failure} (hfailed : redirection tokens = .error failure) :
    failure.cause = .missingTarget opener.value := by
  rw [h.redirection_eq] at hfailed
  unfold target at hfailed
  split at hfailed
  · cases hfailed
    rfl
  · split at hfailed
    · cases hfailed
    · cases hfailed
      rfl

/-- A token that is unexpected stands where a command has to begin. -/
theorem isControl_of_fault_unexpected {before token : Token} {found : String}
    (h : fault (some before) token = some (.unexpectedToken found)) :
    before.kind.isControl = true := by
  cases hkind : before.kind with
  | control op => rfl
  | redirection op =>
    simp only [fault, hkind] at h
    split at h <;> cases h
  | eof => simp [fault, hkind] at h
  | reserved w => simp [fault, hkind] at h
  | word => simp [fault, hkind] at h
  | ioNumber => simp [fault, hkind] at h

end Grammar

open Grammar

/-- Wherever a redirection is read, its operator is there and its number is a descriptor, so that
only the target can be missing. An unexpected token stands in front of all or behind a control
operator. The redirections of a program are those that its text writes, in their order. -/
theorem redirections_of_text (text : String) :
    (∀ before token rest, tokenize text = before ++ token :: rest →
      token.kind.opensRedirection = true →
        ∃ number op opener behind, Attaches (token :: rest) number op opener behind ∧
          ∀ failure, redirection (token :: rest) = .error failure →
            failure.cause = .missingTarget opener.value) ∧
    (∀ e found, parse text = .error e → e.cause = .unexpectedToken found →
      ∃ before token after, tokenize text ++ [endOfInput text] = before ++ token :: after ∧
        token.position = e.position ∧
        ∀ previous ∈ before.getLast?, previous.kind.isControl = true) ∧
    ∀ program, parse text = .ok program →
      program.redirections.map Redirection.written =
        writtenRedirections none ((tokenize text).map Token.terminal) := by
  refine ⟨?_, ?_, ?_⟩
  · intro before token rest htokens hopens
    have hformed := wellFormed_tokenize text
    rw [htokens] at hformed
    obtain ⟨number, op, opener, behind, hattaches⟩ := exists_attaches hformed.of_append hopens
    exact ⟨number, op, opener, behind, hattaches, fun failure ↦ hattaches.cause_eq⟩
  · intro e found herror hcause
    obtain ⟨before, token, after, hstream, hbehind, hposition, -⟩ :=
      exists_faultBehind_of_parse herror
    refine ⟨before, token, after, hstream, hposition, fun previous hprevious ↦ ?_⟩
    have hfault := hbehind.fault_eq_some
    rw [Option.mem_def.1 hprevious, hcause] at hfault
    exact isControl_of_fault_unexpected hfault
  · intro program hparse
    exact (derivesProgram_of_parse hparse).writes.writtenRedirections_eq.symm

theorem redirections_of_text_with_numbers :
    (∃ before token rest, tokenize "a 2>x; b 12> z <<-if" = before ++ token :: rest ∧
      token = ⟨.ioNumber, "2", ⟨1, 3⟩⟩ ∧
      ∃ number op opener behind, Attaches (token :: rest) number op opener behind) ∧
    (∃ program, parse "a 2>x; b 12> z <<-if" = .ok program ∧
      program.redirections.map Redirection.written =
        [⟨some "2", .write, some "x"⟩, ⟨none, .write, some "z"⟩,
          ⟨none, .hereDocumentStripped, some "if"⟩]) ∧
    ∃ e, parse "a | 2>x" = .error e ∧ e.cause = .unexpectedToken "2" ∧
      ∃ before token after,
        tokenize "a | 2>x" ++ [endOfInput "a | 2>x"] = before ++ token :: after ∧
          token.position = e.position ∧
          ∀ previous ∈ before.getLast?, previous.kind.isControl = true := by
  have htokens : tokenize "a 2>x; b 12> z <<-if" =
      [⟨.word, "a", ⟨1, 1⟩⟩] ++ ⟨.ioNumber, "2", ⟨1, 3⟩⟩ ::
        [⟨.redirection .write, ">", ⟨1, 4⟩⟩, ⟨.word, "x", ⟨1, 5⟩⟩,
          ⟨.control (.separator .semicolon), ";", ⟨1, 6⟩⟩, ⟨.word, "b", ⟨1, 8⟩⟩,
          ⟨.word, "12", ⟨1, 10⟩⟩, ⟨.redirection .write, ">", ⟨1, 12⟩⟩, ⟨.word, "z", ⟨1, 14⟩⟩,
          ⟨.redirection .hereDocumentStripped, "<<-", ⟨1, 16⟩⟩,
          ⟨.reserved .ifWord, "if", ⟨1, 19⟩⟩] := by
    decide +kernel
  have hparse : parse "a 2>x; b 12> z <<-if" = .ok ⟨[.sequence .semicolon
      (.simple ⟨"a", [], [⟨some 2, .write, "x"⟩]⟩)
      (.simple ⟨"b", ["12"],
        [⟨none, .write, "z"⟩, ⟨none, .hereDocumentStripped, "if"⟩]⟩)]⟩ := by
    decide +kernel
  have herror : parse "a | 2>x" = .error ⟨.unexpectedToken "2", ⟨1, 5⟩, "a | 2>x"⟩ := by
    decide +kernel
  obtain ⟨hread, -, hwritten⟩ := redirections_of_text "a 2>x; b 12> z <<-if"
  obtain ⟨number, op, opener, behind, hattaches, -⟩ := hread _ _ _ htokens rfl
  have hunexpected := (redirections_of_text "a | 2>x").2.1 _ "2" herror rfl
  refine ⟨⟨_, _, _, htokens, rfl, number, op, opener, behind, hattaches⟩, ⟨_, hparse, ?_⟩,
    _, herror, rfl, hunexpected⟩
  rw [hwritten _ hparse, htokens]
  rfl

end ShellLine
