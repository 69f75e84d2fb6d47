import ShellLine.Proofs.Grammar.ErrorPlace
import ShellLine.Proofs.Text.Apart
import ShellLine.Proofs.Text.Decimal

/-!
# An error message is two lines

A message has the place and the cause in its first line and the quoted line in its
second. The cause repeats the spelling of tokens, which hold no line break, and the
quoted line is a line of the text, so neither of the two is broken anywhere else.
-/

namespace ShellLine

open Grammar Text

/-- No character of the text breaks a line. -/
def Unbroken (text : String) : Prop := ∀ c ∈ text.toList, isLineBreak c = false

namespace Unbroken

variable {text more : String}

theorem of_all (h : text.toList.all (!isLineBreak ·) = true) : Unbroken text := by
  intro c hc
  have hbreak := List.all_eq_true.1 h c hc
  rwa [Bool.not_eq_true'] at hbreak

theorem append (h : Unbroken text) (hmore : Unbroken more) : Unbroken (text ++ more) := by
  intro c hc
  rw [String.toList_append] at hc
  exact List.forall_mem_append.2 ⟨h, hmore⟩ c hc

theorem newline_not_mem (h : Unbroken text) : '\n' ∉ text.toList := fun hnewline ↦
  absurd (h '\n' hnewline) (by decide)

theorem of_toString (n : Nat) : Unbroken (toString n) := by
  intro c hc
  have hdigit := isDigit_of_mem_toString hc
  rw [Bool.eq_false_iff]
  intro hbreak
  rw [isDigit_eq_false_of_isBlank (isBlank_of_isLineBreak hbreak)] at hdigit
  cases hdigit

end Unbroken

/-- What stands in a line is not broken. -/
theorem Token.StandsIn.unbroken_value {token : Token} {line : String} {column : Nat}
    (h : token.StandsIn line column) : Unbroken token.value := fun c hc ↦
  h.not_isLineBreak c (List.mem_of_mem_drop (h.value_front.subset hc))

theorem unbroken_value_of_mem {text : String} {token : Token}
    (h : token ∈ tokenize text ++ [endOfInput text]) : Unbroken token.value :=
  (shownIn_of_mem h).unbroken_value

/-! ## Causes -/

section Causes

variable {token : Token} {cause : ParseError.Cause}

theorem unbroken_of_openingFault {operator : Option Token}
    (hoperator : ∀ before ∈ operator, Unbroken before.value) (htoken : Unbroken token.value)
    (h : openingFault operator token = some cause) : Unbroken cause.message := by
  have hquote : Unbroken "`" := .of_all (by decide)
  unfold openingFault at h
  split at h
  · cases h
  · cases h
    exact .of_all (by decide)
  · cases h
    have hword : Unbroken ("`" ++ token.value ++ "` compound command") :=
      (hquote.append htoken).append (.of_all (by decide))
    exact hword.append (.of_all (by decide))
  · next before _ =>
    cases h
    have hfound : Unbroken ("unexpected `" ++ token.value ++ "` after `") :=
      ((Unbroken.of_all (by decide)).append htoken).append (.of_all (by decide))
    exact (hfound.append (hoperator before rfl)).append hquote
  · cases h
  · next before _ =>
    split at h
    · cases h
    · cases h
      have hend : Unbroken "unexpected end of input after `" := .of_all (by decide)
      exact (hend.append (hoperator before rfl)).append hquote
  · cases h
    have hnear : Unbroken "syntax error near unexpected token `" := .of_all (by decide)
    exact (hnear.append htoken).append hquote

theorem unbroken_of_fault {previous : Option Token}
    (hprevious : ∀ before ∈ previous, Unbroken before.value) (htoken : Unbroken token.value)
    (h : fault previous token = some cause) : Unbroken cause.message := by
  unfold fault at h
  split at h
  · exact unbroken_of_openingFault (fun _ hnone ↦ absurd hnone (Option.not_mem_none _)) htoken h
  · next before =>
    split at h
    · exact unbroken_of_openingFault hprevious htoken h
    · split at h
      · cases h
      · cases h
        have hmissing : Unbroken "missing redirection target after `" := .of_all (by decide)
        exact (hmissing.append (hprevious before rfl)).append (.of_all (by decide))
    · cases h

/-- The first fault is told with the spelling of tokens of the list. -/
theorem unbroken_of_firstFault {previous : Option Token} {tokens : List Token}
    (hprevious : ∀ before ∈ previous, Unbroken before.value)
    (htokens : ∀ token ∈ tokens, Unbroken token.value)
    (h : firstFault previous tokens = some (cause, token)) : Unbroken cause.message := by
  induction tokens generalizing previous with
  | nil => cases h
  | cons first rest ih =>
    obtain ⟨hfirst, hrest⟩ := List.forall_mem_cons.1 htokens
    rw [firstFault] at h
    split at h
    · next hfault =>
      cases h
      exact unbroken_of_fault hprevious hfirst hfault
    · exact ih (fun before hbefore ↦ Option.mem_some.1 hbefore ▸ hfirst) hrest h

end Causes

/-! ## Messages -/

namespace ParseError

/-- The place and the cause. -/
def headline (e : ParseError) : String :=
  "parse error at " ++ toString e.position.line ++ ":" ++ toString e.position.column ++ ": " ++
    e.cause.message

/-- The quoted line, indented. -/
def quotation (e : ParseError) : String := "  " ++ e.sourceLine

/-- The lines of a message. -/
def lines (e : ParseError) : List String := [e.headline, e.quotation]

theorem message_eq (e : ParseError) : e.message = e.headline ++ "\n" ++ e.quotation := by
  have hbreak : "\n  " = "\n" ++ "  " := by decide
  calc
    e.message = e.headline ++ "\n  " ++ e.sourceLine := rfl
    _ = e.headline ++ ("\n" ++ "  ") ++ e.sourceLine := by rw [hbreak]
    _ = e.headline ++ "\n" ++ ("  " ++ e.sourceLine) := by
      rw [← String.append_assoc, String.append_assoc]

end ParseError

theorem unbroken_of_parse_eq_error {text : String} {e : ParseError} (h : parse text = .error e) :
    Unbroken e.headline ∧ Unbroken e.quotation := by
  obtain ⟨token, hfault, hposition, hline⟩ := exists_fault_of_parse_eq_error h
  have hcause : Unbroken e.cause.message :=
    unbroken_of_firstFault (fun _ hnone ↦ absurd hnone (Option.not_mem_none _))
      (fun _ ↦ unbroken_value_of_mem) hfault
  have hquoted : Unbroken e.sourceLine := by
    rw [hline]
    exact (shownIn_of_mem (mem_of_firstFault hfault)).not_isLineBreak
  have hplace : Unbroken ("parse error at " ++ toString e.position.line ++ ":" ++
      toString e.position.column ++ ": ") :=
    ((((Unbroken.of_all (by decide)).append (.of_toString _)).append (.of_all (by decide))).append
      (.of_toString _)).append (.of_all (by decide))
  have hindent : Unbroken "  " := .of_all (by decide)
  exact ⟨hplace.append hcause, hindent.append hquoted⟩

end ShellLine
