import ShellLine.Grammar.Command
import ShellLine.Proofs.Grammar.Derivation
import ShellLine.Proofs.Text.Decimal

/-!
# Commands and their redirections are read as derived

A reader takes from the front of well-formed tokens what derives its value, and
stops at a control operator or at the end. In front of either it takes any tokens
that derive a value. The digit of a descriptor is read back from its decimal
spelling.
-/

namespace ShellLine.Grammar

/-! ## Descriptors -/

theorem descriptor?_toString (descriptor : UInt32) :
    descriptor? (toString descriptor.toNat) = some descriptor := by
  have hall : (Nat.toDigits 10 descriptor.toNat).all Char.isDigit = true :=
    List.all_eq_true.2 fun c hc ↦ Nat.isDigit_of_mem_toDigits (by omega) (by omega) hc
  have hvalue : (Nat.toDigits 10 descriptor.toNat).foldl
      (fun n c ↦ 10 * n + (c.toNat - '0'.toNat)) 0 = descriptor.toNat := by
    rw [← Nat.ofDigitChars_eq_foldl, Nat.ofDigitChars_ten_toDigits]
  unfold descriptor?
  rw [Text.toList_toString, hvalue, if_pos ⟨Nat.toDigits_ne_nil, hall, descriptor.toNat_lt⟩,
    UInt32.ofNat_toNat]

/-- A single digit is the decimal spelling of a descriptor. -/
theorem exists_toString_eq {value : String} {c : Char} (hc : c.isDigit = true)
    (hvalue : value.toList = [c]) : ∃ descriptor : UInt32, value = toString descriptor.toNat := by
  have hbounds := Char.isDigit_iff_toNat.1 hc
  have hlt : c.toNat - 48 < 10 := by
    have hlast : c.toNat ≤ 57 := hbounds.2
    omega
  refine ⟨UInt32.ofNat (c.toNat - 48), ?_⟩
  have hnat : (UInt32.ofNat (c.toNat - 48)).toNat = c.toNat - 48 :=
    UInt32.toNat_ofNat_of_lt' (Nat.lt_trans hlt (by decide))
  have hdigit : (c.toNat - 48).digitChar = c := by
    apply Char.toNat_inj.1
    rw [Nat.toNat_digitChar_of_lt_ten hlt]
    have hfirst : 48 ≤ c.toNat := hbounds.1
    omega
  rw [← String.toList_inj, hnat, Text.toList_toString_of_lt_ten hlt, hdigit, hvalue]

/-! ## Redirections -/

theorem exists_of_target {descriptor : Option UInt32} {op : RedirectionOperator}
    {written : String} {tokens rest : List Token} {value : Redirection}
    (h : target descriptor op written tokens = .ok (value, rest)) :
    ∃ token, tokens = token :: rest ∧ token.kind.isArgument = true ∧
      value = ⟨descriptor, op, token.value⟩ := by
  unfold target at h
  split at h
  · cases h
  · next token rest' =>
    split at h
    · next hkind =>
      cases h
      exact ⟨token, rfl, hkind, rfl⟩
    · cases h

theorem exists_of_attachment {descriptor : Option UInt32} {tokens rest : List Token}
    {value : Redirection} (h : attachment descriptor tokens = .ok (value, rest)) :
    ∃ op opener token, tokens = opener :: token :: rest ∧ opener.kind = .redirection op ∧
      token.kind.isArgument = true ∧ value = ⟨descriptor, op, token.value⟩ := by
  unfold attachment at h
  split at h
  · cases h
  · next opener behind =>
    split at h
    · next op hop =>
      obtain ⟨token, rfl, hkind, hvalue⟩ := exists_of_target h
      exact ⟨op, opener, token, rfl, hop, hkind, hvalue⟩
    · cases h

theorem attachment_cons (descriptor : Option UInt32) {op : RedirectionOperator}
    {opener token : Token} (rest : List Token) (hop : opener.kind = .redirection op)
    (hkind : token.kind.isArgument = true) :
    attachment descriptor (opener :: token :: rest) =
      .ok (⟨descriptor, op, token.value⟩, rest) := by
  simp [attachment, target, hop, hkind]

theorem redirection_sound {tokens rest : List Token} {value : Redirection}
    (hformed : WellFormed tokens) (h : redirection tokens = .ok (value, rest)) :
    ∃ read, tokens = read ++ rest ∧ DerivesRedirection (read.map Token.terminal) value := by
  unfold redirection at h
  split at h
  · cases h
  · next token behind =>
    split at h
    · next hnumber =>
      obtain ⟨c, hc, hdigit⟩ := hformed.1.exists_digit hnumber
      obtain ⟨descriptor, hvalue⟩ : ∃ descriptor : UInt32,
          token.value = toString descriptor.toNat := exists_toString_eq hc hdigit
      rw [hvalue, descriptor?_toString] at h
      obtain ⟨op, opener, last, rfl, hop, hkind, rfl⟩ := exists_of_attachment h
      have hopener := hformed.2.2.1.eq_redirection hop
      have hfirst : token.terminal = ⟨.ioNumber, toString descriptor.toNat⟩ := by
        rw [Token.terminal, hnumber, hvalue]
      refine ⟨[token, opener, last], rfl, ?_⟩
      rw [List.map_cons, List.map_cons, hfirst, hopener]
      exact .numbered descriptor op hkind
    · obtain ⟨op, opener, last, heq, hop, hkind, rfl⟩ := exists_of_attachment h
      cases heq
      have hopener := hformed.1.eq_redirection hop
      refine ⟨[token, last], rfl, ?_⟩
      rw [List.map_cons, hopener]
      exact .plain op hkind

theorem redirection_complete {tokens : List Token} {value : Redirection}
    (h : DerivesRedirection (tokens.map Token.terminal) value) (rest : List Token) :
    redirection (tokens ++ rest) = .ok (value, rest) := by
  generalize hterminals : tokens.map Token.terminal = terminals at h
  cases h with
  | plain op hkind =>
    obtain ⟨opener, behind, rfl, hopener, hbehind⟩ := List.map_eq_cons_iff.1 hterminals
    obtain ⟨last, rfl, rfl⟩ := List.map_eq_singleton_iff.1 hbehind
    have hop : opener.kind = .redirection op := congrArg Terminal.kind hopener
    have hplain : opener.kind ≠ .ioNumber := by
      rw [hop]
      exact nofun
    change redirection (opener :: last :: rest) = _
    rw [redirection, if_neg hplain, attachment_cons none rest hop hkind]
    rfl
  | numbered descriptor op hkind =>
    obtain ⟨number, behind, rfl, hnumber, hbehind⟩ := List.map_eq_cons_iff.1 hterminals
    obtain ⟨opener, behind, rfl, hopener, hbehind⟩ := List.map_eq_cons_iff.1 hbehind
    obtain ⟨last, rfl, rfl⟩ := List.map_eq_singleton_iff.1 hbehind
    have hop : opener.kind = .redirection op := congrArg Terminal.kind hopener
    have hfirst : number.kind = .ioNumber := congrArg Terminal.kind hnumber
    have hvalue : number.value = toString descriptor.toNat := congrArg Terminal.value hnumber
    change redirection (number :: opener :: last :: rest) = _
    rw [redirection, if_pos hfirst, hvalue, descriptor?_toString,
      attachment_cons (some descriptor) rest hop hkind]
    rfl

theorem DerivesRedirection.exists_opener {terminals : List Terminal} {value : Redirection}
    (h : DerivesRedirection terminals value) :
    ∃ terminal rest, terminals = terminal :: rest ∧ terminal.kind.opensRedirection = true := by
  cases h with
  | plain op => exact ⟨_, _, rfl, rfl⟩
  | numbered descriptor op => exact ⟨_, _, rfl, rfl⟩

/-! ## Commands -/

/-- Nothing follows, or a control operator of a certain sort does. -/
def StopsAt (p : ControlOperator → Prop) : List Token → Prop
  | [] => True
  | token :: _ => ∃ op, token.kind = .control op ∧ p op

/-- What is neither argument nor redirection ends a command. -/
theorem stopsAt_of_not_tail {token : Token} {rest : List Token}
    (hformed : WellFormed (token :: rest)) (hargument : ¬ token.kind.isArgument = true)
    (hopens : ¬ token.kind.opensRedirection = true) :
    StopsAt (fun _ ↦ True) (token :: rest) := by
  cases hkind : token.kind with
  | control op => exact ⟨op, hkind, trivial⟩
  | eof => exact absurd hkind hformed.1.kind_ne_eof
  | redirection op => exact absurd (by rw [hkind]; rfl) hopens
  | ioNumber => exact absurd (by rw [hkind]; rfl) hopens
  | reserved w => exact absurd (by rw [hkind]; rfl) hargument
  | word => exact absurd (by rw [hkind]; rfl) hargument

theorem commandTail_sound {tokens : List Token} {tail : CommandTail}
    (hformed : WellFormed tokens) (h : commandTail tokens = .ok tail) :
    ∃ read, tokens = read ++ tail.rest ∧
      DerivesTail (read.map Token.terminal) tail.arguments tail.redirections ∧
      StopsAt (fun _ ↦ True) tail.rest := by
  fun_induction commandTail tokens generalizing tail with
  | case1 =>
    cases h
    exact ⟨[], rfl, .nil, trivial⟩
  | case2 token rest hargument ih =>
    obtain ⟨inner, hrest, rfl⟩ := exists_of_map_eq_ok h
    obtain ⟨read, rfl, hderives, hstops⟩ := ih hformed.2.2 hrest
    exact ⟨token :: read, rfl, .argument hargument hderives, hstops⟩
  | case3 => cases h
  | case4 token rest _ _ value after hread ih =>
    obtain ⟨inner, hrest, rfl⟩ := exists_of_map_eq_ok h
    obtain ⟨head, hhead, hredirection⟩ := redirection_sound hformed hread
    rw [hhead] at hformed ⊢
    obtain ⟨read, rfl, hderives, hstops⟩ := ih hformed.of_append hrest
    refine ⟨head ++ read, (List.append_assoc ..).symm, ?_, hstops⟩
    rw [List.map_append]
    exact .redirection hredirection hderives
  | case5 token rest hargument hopens =>
    cases h
    exact ⟨[], rfl, .nil, stopsAt_of_not_tail hformed hargument hopens⟩

theorem StopsAt.mono {p q : ControlOperator → Prop} {tokens : List Token} (h : StopsAt p tokens)
    (himp : ∀ op, p op → q op) : StopsAt q tokens := by
  cases tokens with
  | nil => trivial
  | cons token rest =>
    obtain ⟨op, hop, hp⟩ := h
    exact ⟨op, hop, himp op hp⟩

theorem commandTail_of_stopsAt {tokens : List Token} (h : StopsAt (fun _ ↦ True) tokens) :
    commandTail tokens = .ok ⟨[], [], tokens⟩ := by
  cases tokens with
  | nil => rw [commandTail]
  | cons token rest =>
    obtain ⟨op, hop, -⟩ := h
    simp [commandTail, hop, Token.Kind.isArgument, Token.Kind.opensRedirection]

theorem commandTail_argument {token : Token} (rest : List Token)
    (h : token.kind.isArgument = true) :
    commandTail (token :: rest) = (commandTail rest).map (.withArgument token.value) := by
  rw [commandTail, if_pos h]

theorem commandTail_redirection {token : Token} {rest after : List Token} {value : Redirection}
    (hopens : token.kind.opensRedirection = true)
    (hread : redirection (token :: rest) = .ok (value, after)) :
    commandTail (token :: rest) = (commandTail after).map (.withRedirection value) := by
  rw [commandTail, if_neg (Token.Kind.not_isArgument_of_opensRedirection hopens), if_pos hopens]
  split
  · next hfailed =>
    rw [hread] at hfailed
    cases hfailed
  · next hread' =>
    rw [hread] at hread'
    cases hread'
    rfl

theorem commandTail_complete {terminals : List Terminal} {arguments : List String}
    {redirections : List Redirection} (h : DerivesTail terminals arguments redirections)
    {tokens rest : List Token} (hterminals : tokens.map Token.terminal = terminals)
    (hstops : StopsAt (fun _ ↦ True) rest) :
    commandTail (tokens ++ rest) = .ok ⟨arguments, redirections, rest⟩ := by
  induction h generalizing tokens with
  | nil =>
    obtain rfl := List.map_eq_nil_iff.1 hterminals
    exact commandTail_of_stopsAt hstops
  | argument hargument _ ih =>
    obtain ⟨token, behind, rfl, rfl, hbehind⟩ := List.map_eq_cons_iff.1 hterminals
    have hkind : token.kind.isArgument = true := hargument
    rw [List.cons_append, commandTail_argument _ hkind, ih hbehind]
    rfl
  | redirection hhead _ ih =>
    obtain ⟨head, behind, rfl, rfl, hbehind⟩ := List.map_eq_append_iff.1 hterminals
    obtain ⟨terminal, more, hcons, hopens⟩ := hhead.exists_opener
    obtain ⟨opener, others, rfl, rfl, -⟩ := List.map_eq_cons_iff.1 hcons
    have hread := redirection_complete hhead (behind ++ rest)
    rw [List.append_assoc]
    calc commandTail (opener :: others ++ (behind ++ rest))
        = (commandTail (behind ++ rest)).map (.withRedirection _) :=
          commandTail_redirection hopens hread
      _ = _ := by rw [ih hbehind]; rfl

/-- The tokens that a command takes derive its value. -/
theorem readCommand_sound {tokens rest : List Token} {node : Node} (hformed : WellFormed tokens)
    (h : readCommand tokens = .ok (some (node, rest))) :
    ∃ read, tokens = read ++ rest ∧ DerivesCommand (read.map Token.terminal) node ∧
      StopsAt (fun _ ↦ True) rest := by
  unfold readCommand at h
  split at h
  · cases h
  · next token behind =>
    split at h
    · next hword =>
      obtain ⟨tail, htail, hvalue⟩ := exists_of_map_eq_ok h
      cases hvalue
      obtain ⟨read, rfl, hderives, hstops⟩ := commandTail_sound hformed.2.2 htail
      have hname : token.terminal = ⟨.word, token.value⟩ := by
        rw [Token.terminal, hword]
      refine ⟨token :: read, rfl, ?_, hstops⟩
      rw [List.map_cons, hname]
      exact .named token.value hderives
    · cases h
    · cases h
    · cases h

theorem readCommand_complete {tokens rest : List Token} {node : Node}
    (h : DerivesCommand (tokens.map Token.terminal) node) (hstops : StopsAt (fun _ ↦ True) rest) :
    readCommand (tokens ++ rest) = .ok (some (node, rest)) := by
  generalize hterminals : tokens.map Token.terminal = terminals at h
  cases h with
  | named name htail =>
    obtain ⟨token, behind, rfl, hname, hbehind⟩ := List.map_eq_cons_iff.1 hterminals
    have hword : token.kind = .word := congrArg Terminal.kind hname
    have hvalue : token.value = name := congrArg Terminal.value hname
    simp only [List.cons_append, readCommand, hword, hvalue]
    rw [commandTail_complete htail hbehind hstops]
    rfl

/-- Only at the end of the tokens no command is read and none fails. -/
theorem readCommand_eq_none_iff {tokens : List Token} :
    readCommand tokens = .ok none ↔ tokens = [] := by
  constructor
  · intro h
    unfold readCommand at h
    split at h
    · rfl
    · next token behind =>
      split at h
      · obtain ⟨tail, -, hvalue⟩ := exists_of_map_eq_ok h
        cases hvalue
      · cases h
      · cases h
      · cases h
  · rintro rfl
    rfl

end ShellLine.Grammar
