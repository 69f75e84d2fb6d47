import ShellLine.Program.Render
import ShellLine.Proofs.Program.Parsed

/-!
# The rendered form determines the program

Words are rendered without quotes, and a word may begin with a bracket or be the
opening word of a redirection. Still no two programs of lexemes are rendered alike:
a word holds no blank, goes on with word characters only, and never begins like an
operator. So every part tells where it ends, whatever is written behind it.

A node as a whole is followed up to its closing bracket, so the text behind it is
determined too.
-/

namespace ShellLine

open Text Lexicon

/-! ## Where a lexeme ends -/

/-- Two runs of one class of characters, each in front of a character of another class. -/
theorem append_inj_of_stops {p : Char → Bool} {u v x y : List Char}
    (hu : ∀ c ∈ u, p c = true) (hv : ∀ c ∈ v, p c = true) (hx : ∀ c ∈ x.head?, p c = false)
    (hy : ∀ c ∈ y.head?, p c = false) (h : u ++ x = v ++ y) : u = v ∧ x = y := by
  have hstop : ∀ z : List Char, (∀ c ∈ z.head?, p c = false) → z.takeWhile p = [] := by
    intro z hz
    cases z with
    | nil => rfl
    | cons c z =>
      have hc : ¬ p c = true := Bool.eq_false_iff.1 (hz c rfl)
      exact List.takeWhile_cons_of_neg hc
  have hruns := congrArg (List.takeWhile p) h
  rw [List.takeWhile_append_of_pos hu, List.takeWhile_append_of_pos hv, hstop x hx, hstop y hy,
    List.append_nil, List.append_nil] at hruns
  rw [hruns] at h
  exact ⟨hruns, List.append_cancel_left h⟩

namespace Lexicon

/-- What cannot continue a word. -/
def StopsWord (text : List Char) : Prop :=
  ∀ c ∈ text.head?, isWordChar c = false

theorem IsWord.exists_cons {word : List Char} (h : IsWord word) :
    ∃ c cs, word = c :: cs ∧ ∀ d ∈ cs, isWordChar d = true := by
  obtain ⟨c, cs, rfl⟩ := List.exists_cons_of_ne_nil (IsLexeme.ne_nil (.inr h))
  refine ⟨c, cs, rfl, fun d hd ↦ ?_⟩
  rcases h with hnumber | hname
  · exact isWordChar_of_isDigit (hnumber.2 d (List.mem_cons_of_mem c hd))
  · exact hname.2 d hd

/-- The first character of a word may be anything, so it is compared before the others. -/
theorem IsWord.append_inj {u v x y : List Char} (hu : IsWord u) (hv : IsWord v)
    (hx : StopsWord x) (hy : StopsWord y) (h : u ++ x = v ++ y) : u = v ∧ x = y := by
  obtain ⟨c, cs, rfl, hcs⟩ := hu.exists_cons
  obtain ⟨d, ds, rfl, hds⟩ := hv.exists_cons
  obtain ⟨rfl, htails⟩ := List.cons.inj h
  obtain ⟨rfl, hrest⟩ := append_inj_of_stops hcs hds hx hy htails
  exact ⟨rfl, hrest⟩

theorem IsLexeme.append_space_inj {u v x y : List Char} (hu : IsLexeme u) (hv : IsLexeme v)
    (h : u ++ ' ' :: x = v ++ ' ' :: y) : u = v ∧ x = y := by
  have hnot : ∀ {w : List Char}, IsLexeme w → ∀ c ∈ w, (!isBlank c) = true := by
    intro w hw c hc
    rw [hw.isBlank_eq_false c hc]
    rfl
  have hspace : ∀ z : List Char, ∀ c ∈ (' ' :: z).head?, (!isBlank c) = false := by
    rintro z c ⟨⟩
    decide
  obtain ⟨rfl, hrest⟩ := append_inj_of_stops (hnot hu) (hnot hv) (hspace x) (hspace y) h
  exact ⟨rfl, (List.cons.inj hrest).2⟩

/-- No word begins like an operator. -/
theorem IsWord.append_ne_operator {word lexeme x y : List Char} (hword : IsWord word)
    (hop : IsOperator lexeme) : word ++ x ≠ lexeme ++ y := by
  obtain ⟨c, cs, rfl, -⟩ := hword.exists_cons
  obtain ⟨d, ds, rfl, hd⟩ := hop.head_mem
  intro h
  obtain ⟨rfl, -⟩ := List.cons.inj h
  exact hword.head_not_mem hd

end Lexicon

/-! ## Redirections -/

theorem isWord_toString (descriptor : UInt32) : IsWord (toString descriptor.toNat).toList := by
  obtain ⟨c, digits, hdigits, -⟩ := exists_digit_toString descriptor.toNat
  have hne : (toString descriptor.toNat).toList ≠ [] := hdigits ▸ List.cons_ne_nil c digits
  exact .inl ⟨hne, fun _ ↦ isDigit_of_mem_toString⟩

theorem stopsWord_cons {c : Char} (text : List Char) (h : isWordChar c = false) :
    StopsWord (c :: text) := by
  rintro d ⟨⟩
  exact h

theorem attached_inj {op op' : RedirectionOperator} {target target' : String}
    {rest rest' : List Char} (htarget : IsWord target.toList) (htarget' : IsWord target'.toList)
    (h : op.spelling.toList ++ ' ' :: (target.toList ++ ')' :: rest) =
      op'.spelling.toList ++ ' ' :: (target'.toList ++ ')' :: rest')) :
    op = op' ∧ target = target' ∧ rest = rest' := by
  obtain ⟨hop, hbehind⟩ := IsLexeme.append_space_inj (.inl (isOperator_spelling_redirection op))
    (.inl (isOperator_spelling_redirection op')) h
  obtain ⟨htargets, hrest⟩ := htarget.append_inj htarget' (stopsWord_cons rest (by decide))
    (stopsWord_cons rest' (by decide)) hbehind
  exact ⟨RedirectionOperator.spelling_injective (String.toList_inj.1 hop),
    String.toList_inj.1 htargets, (List.cons.inj hrest).2⟩

theorem Redirection.Canonical.renderThen_inj {a b : Redirection} (ha : a.Canonical)
    (hb : b.Canonical) {rest rest' : List Char} (h : a.renderThen rest = b.renderThen rest') :
    a = b ∧ rest = rest' := by
  obtain ⟨descriptor, op, target⟩ := a
  obtain ⟨descriptor', op', target'⟩ := b
  cases descriptor with
  | none =>
    cases descriptor' with
    | none =>
      have hbehind := List.append_cancel_left h
      obtain ⟨rfl, rfl, hrest⟩ := attached_inj ha.2 hb.2 hbehind
      exact ⟨rfl, hrest⟩
    | some number =>
      have hbehind := List.append_cancel_left h
      exact absurd hbehind.symm ((isWord_toString number).append_ne_operator
        (isOperator_spelling_redirection op))
  | some number =>
    cases descriptor' with
    | none =>
      have hbehind := List.append_cancel_left h
      exact absurd hbehind ((isWord_toString number).append_ne_operator
        (isOperator_spelling_redirection op'))
    | some number' =>
      have hbehind := List.append_cancel_left h
      obtain ⟨hnumber, hattached⟩ := IsLexeme.append_space_inj (.inr (isWord_toString number))
        (.inr (isWord_toString number')) hbehind
      obtain ⟨rfl, rfl, hrest⟩ := attached_inj ha.2 hb.2 hattached
      have hread := congrArg Grammar.descriptor? (String.toList_inj.1 hnumber)
      rw [Grammar.descriptor?_toString, Grammar.descriptor?_toString] at hread
      rw [hread]
      exact ⟨rfl, hrest⟩

theorem Redirection.renderEachThen_inj {as bs : List Redirection}
    (ha : ∀ redirection ∈ as, redirection.Canonical)
    (hb : ∀ redirection ∈ bs, redirection.Canonical) {rest rest' : List Char}
    (h : renderEachThen as (')' :: rest) = renderEachThen bs (')' :: rest')) :
    as = bs ∧ rest = rest' := by
  induction as generalizing bs with
  | nil =>
    cases bs with
    | nil => exact ⟨rfl, (List.cons.inj h).2⟩
    | cons b bs => cases h
  | cons a as ih =>
    cases bs with
    | nil => cases h
    | cons b bs =>
      obtain ⟨hfirst, has⟩ := List.forall_mem_cons.1 ha
      obtain ⟨hfirst', hbs⟩ := List.forall_mem_cons.1 hb
      obtain ⟨hab, hothers⟩ := hfirst.renderThen_inj hfirst' (List.cons.inj h).2
      obtain ⟨hlists, hrest⟩ := ih has hbs hothers
      rw [hab, hlists]
      exact ⟨rfl, hrest⟩

/-! ## Arguments -/

/-- What stands behind an argument: the closing bracket, or a space and the other arguments. -/
def behindArgument : List String → List Char → List Char
  | [], rest => ']' :: rest
  | next :: arguments, rest => ' ' :: joinThen [' '] (next :: arguments) (']' :: rest)

theorem joinThen_cons (argument : String) (arguments : List String) (rest : List Char) :
    joinThen [' '] (argument :: arguments) (']' :: rest) =
      argument.toList ++ behindArgument arguments rest := by
  cases arguments <;> rfl

theorem stopsWord_behindArgument (arguments : List String) (rest : List Char) :
    StopsWord (behindArgument arguments rest) := by
  cases arguments with
  | nil => exact stopsWord_cons _ (by decide)
  | cons next arguments => exact stopsWord_cons _ (by decide)

/-- All words may be written as arguments. -/
def AllWords (words : List String) : Prop :=
  ∀ word ∈ words, IsWord word.toList

section Arguments

variable {arguments arguments' : List String} {argument : String} {word rest rest' : List Char}

theorem behindArgument_eq (hwords : AllWords (argument :: arguments)) (hword : IsWord word)
    {behind : List Char} (hbehind : StopsWord behind)
    (h : joinThen [' '] (argument :: arguments) (']' :: rest) = word ++ behind) :
    argument.toList = word ∧ behindArgument arguments rest = behind := by
  have hargument := hwords argument (List.mem_cons_self ..)
  rw [joinThen_cons] at h
  exact hargument.append_inj hword (stopsWord_behindArgument arguments rest) hbehind h

/-- A space behind a word leads to another argument. -/
theorem exists_next_argument (hwords : AllWords (argument :: arguments)) (hword : IsWord word)
    {behind : List Char}
    (h : joinThen [' '] (argument :: arguments) (']' :: rest) = word ++ ' ' :: behind) :
    ∃ next others, AllWords (next :: others) ∧
      joinThen [' '] (next :: others) (']' :: rest) = behind := by
  obtain ⟨-, hbehind⟩ := behindArgument_eq hwords hword (stopsWord_cons behind (by decide)) h
  cases arguments with
  | nil => cases hbehind
  | cons next others =>
    exact ⟨next, others, (List.forall_mem_cons.1 hwords).2, (List.cons.inj hbehind).2⟩

theorem toList_append_of_eq {opening word : String} (h : opening = word ++ " ")
    (body : List Char) : opening.toList ++ body = word.toList ++ ' ' :: body := by
  rw [h, String.toList_append, List.append_assoc]
  rfl

theorem joinThen_ne_attached {op : RedirectionOperator} {behind : List Char}
    (hwords : AllWords (argument :: arguments)) :
    joinThen [' '] (argument :: arguments) (']' :: rest) ≠ op.spelling.toList ++ behind := by
  have hargument := hwords argument (List.mem_cons_self ..)
  rw [joinThen_cons]
  exact hargument.append_ne_operator (isOperator_spelling_redirection op)

/-- Arguments may begin as a rendered redirection does, but they have no operator in them. -/
theorem joinThen_ne_renderThen {redirection : Redirection} {behind : List Char}
    (hwords : AllWords (argument :: arguments)) :
    joinThen [' '] (argument :: arguments) (']' :: rest) ≠ redirection.renderThen behind := by
  obtain ⟨descriptor, op, target⟩ := redirection
  have hopening : IsWord "(redirection".toList := by decide
  have hspaced : "(redirection " = "(redirection" ++ " " := by decide
  intro h
  cases descriptor with
  | none =>
    simp only [Redirection.renderThen, toList_append_of_eq hspaced] at h
    obtain ⟨next, others, hothers, hattached⟩ := exists_next_argument hwords hopening h
    exact joinThen_ne_attached hothers hattached
  | some number =>
    simp only [Redirection.renderThen, toList_append_of_eq hspaced] at h
    obtain ⟨next, others, hothers, hnumber⟩ := exists_next_argument hwords hopening h
    obtain ⟨last, more, hmore, hattached⟩ :=
      exists_next_argument hothers (isWord_toString number) hnumber
    exact joinThen_ne_attached hmore hattached

/-- A bracket that closes empty brackets is not taken for an argument. -/
theorem joinThen_ne_empty_brackets {redirections : List Redirection}
    (hwords : AllWords (argument :: arguments)) :
    joinThen [' '] (argument :: arguments) (']' :: rest) ≠
      ']' :: Redirection.renderEachThen redirections (')' :: rest') := by
  have hbracket : IsWord "]".toList := by decide
  intro h
  cases redirections with
  | nil =>
    obtain ⟨-, hbehind⟩ :=
      behindArgument_eq hwords hbracket (stopsWord_cons (c := ')') rest' (by decide)) h
    cases arguments <;> cases hbehind
  | cons redirection redirections =>
    obtain ⟨next, others, hothers, hnext⟩ := exists_next_argument hwords hbracket h
    exact joinThen_ne_renderThen hothers hnext

theorem first_argument_inj {argument' : String} (hwords : AllWords (argument :: arguments))
    (hwords' : AllWords (argument' :: arguments'))
    (h : joinThen [' '] (argument :: arguments) (']' :: rest) =
      joinThen [' '] (argument' :: arguments') (']' :: rest')) :
    argument = argument' ∧ behindArgument arguments rest = behindArgument arguments' rest' := by
  have hargument' := hwords' argument' (List.mem_cons_self ..)
  rw [joinThen_cons argument'] at h
  obtain ⟨hfirst, hbehind⟩ :=
    behindArgument_eq hwords hargument' (stopsWord_behindArgument arguments' rest') h
  exact ⟨String.toList_inj.1 hfirst, hbehind⟩

theorem joinThen_cons_inj {argument' : String} (hwords : AllWords (argument :: arguments))
    (hwords' : AllWords (argument' :: arguments'))
    (h : joinThen [' '] (argument :: arguments) (']' :: rest) =
      joinThen [' '] (argument' :: arguments') (']' :: rest')) :
    argument :: arguments = argument' :: arguments' ∧ rest = rest' := by
  induction arguments generalizing argument argument' arguments' with
  | nil =>
    obtain ⟨rfl, hbehind⟩ := first_argument_inj hwords hwords' h
    cases arguments' with
    | nil => exact ⟨rfl, (List.cons.inj hbehind).2⟩
    | cons next' others' => cases hbehind
  | cons next others ih =>
    obtain ⟨rfl, hbehind⟩ := first_argument_inj hwords hwords' h
    cases arguments' with
    | nil => cases hbehind
    | cons next' others' =>
      obtain ⟨hothers, hrest⟩ := ih (List.forall_mem_cons.1 hwords).2
        (List.forall_mem_cons.1 hwords').2 (List.cons.inj hbehind).2
      rw [hothers]
      exact ⟨rfl, hrest⟩

end Arguments

/-! ## Commands -/

theorem arguments_inj {arguments arguments' : List String}
    {redirections redirections' : List Redirection} {rest rest' : List Char}
    (hwords : AllWords arguments) (hwords' : AllWords arguments')
    (h : joinThen [' '] arguments
        (']' :: Redirection.renderEachThen redirections (')' :: rest)) =
      joinThen [' '] arguments'
        (']' :: Redirection.renderEachThen redirections' (')' :: rest'))) :
    arguments = arguments' ∧ Redirection.renderEachThen redirections (')' :: rest) =
      Redirection.renderEachThen redirections' (')' :: rest') := by
  cases arguments with
  | nil =>
    cases arguments' with
    | nil => exact ⟨rfl, (List.cons.inj h).2⟩
    | cons argument' arguments' => exact absurd h.symm (joinThen_ne_empty_brackets hwords')
  | cons argument arguments =>
    cases arguments' with
    | nil => exact absurd h (joinThen_ne_empty_brackets hwords)
    | cons argument' arguments' => exact joinThen_cons_inj hwords hwords' h

theorem SimpleCommand.Canonical.renderThen_inj {a b : SimpleCommand} (ha : a.Canonical)
    (hb : b.Canonical) {rest rest' : List Char} (h : a.renderThen rest = b.renderThen rest') :
    a = b ∧ rest = rest' := by
  obtain ⟨name, arguments, redirections⟩ := a
  obtain ⟨name', arguments', redirections'⟩ := b
  obtain ⟨⟨hname, -⟩, hwords, hredirections⟩ := ha
  obtain ⟨⟨hname', -⟩, hwords', hredirections'⟩ := hb
  have hbody := List.append_cancel_left h
  obtain ⟨hnames, hbrackets⟩ := IsLexeme.append_space_inj (.inr hname) (.inr hname') hbody
  obtain ⟨harguments, hbehind⟩ := arguments_inj hwords hwords' (List.cons.inj hbrackets).2
  obtain ⟨hall, hrest⟩ := Redirection.renderEachThen_inj hredirections hredirections' hbehind
  obtain rfl : name = name' := String.toList_inj.1 hnames
  obtain rfl : arguments = arguments' := harguments
  obtain rfl : redirections = redirections' := hall
  exact ⟨rfl, hrest⟩

/-! ## Nodes -/

/-- No subshell, and every command is canonical; the operators may group in any way. -/
def Node.Legible : Node → Prop
  | .sequence _ lhs rhs => lhs.Legible ∧ rhs.Legible
  | .terminated _ lhs => lhs.Legible
  | .conditional _ lhs rhs => lhs.Legible ∧ rhs.Legible
  | .pipe lhs rhs => lhs.Legible ∧ rhs.Legible
  | .simple command => command.Canonical
  | .subshell _ => False

theorem Node.Canonical.legible : ∀ {node : Node}, node.Canonical → node.Legible
  | .sequence _ _ _, ⟨_, hlhs, hrhs⟩ => ⟨hlhs.legible, hrhs.legible⟩
  | .conditional _ _ _, ⟨_, hlhs, hrhs⟩ => ⟨hlhs.legible, hrhs.legible⟩
  | .pipe _ _, ⟨_, hlhs, hrhs⟩ => ⟨hlhs.legible, hrhs.legible⟩
  | .simple _, h => h

theorem Node.CanonicalRoot.legible {node : Node} (h : node.CanonicalRoot) : node.Legible := by
  cases node with
  | terminated op lhs =>
    have hlhs : lhs.Canonical := h
    exact hlhs.legible
  | sequence op lhs rhs => exact Node.Canonical.legible h
  | conditional op lhs rhs => exact Node.Canonical.legible h
  | pipe lhs rhs => exact Node.Canonical.legible h
  | simple command => exact Node.Canonical.legible h
  | subshell nodes => exact h.elim

/-- The word that opens a rendered node. Words of the program may read like it. -/
def Node.opening : Node → String
  | .sequence .. => "(sequence"
  | .terminated .. => "(sequence"
  | .conditional .. => "(conditional"
  | .pipe .. => "(pipe"
  | .simple _ => "(simpleCommand"
  | .subshell _ => "(subshell"

theorem Node.isWord_opening (node : Node) : IsWord node.opening.toList := by
  cases node <;> rw [opening] <;> decide

theorem Node.Legible.exists_body {node : Node} (h : node.Legible) (rest : List Char) :
    ∃ body, node.renderThen rest = node.opening.toList ++ ' ' :: body := by
  cases node with
  | sequence op lhs rhs =>
    have hspaced : "(sequence " = "(sequence" ++ " " := by decide
    exact ⟨_, toList_append_of_eq hspaced _⟩
  | terminated op lhs =>
    have hspaced : "(sequence " = "(sequence" ++ " " := by decide
    exact ⟨_, toList_append_of_eq hspaced _⟩
  | conditional op lhs rhs =>
    have hspaced : "(conditional " = "(conditional" ++ " " := by decide
    exact ⟨_, toList_append_of_eq hspaced _⟩
  | pipe lhs rhs =>
    have hspaced : "(pipe " = "(pipe" ++ " " := by decide
    exact ⟨_, toList_append_of_eq hspaced _⟩
  | simple command =>
    have hspaced : "(simpleCommand " = "(simpleCommand" ++ " " := by decide
    exact ⟨_, toList_append_of_eq hspaced _⟩
  | subshell nodes => exact h.elim

theorem Node.Legible.opening_eq {a b : Node} (ha : a.Legible) (hb : b.Legible)
    {rest rest' : List Char} (h : a.renderThen rest = b.renderThen rest') :
    a.opening = b.opening := by
  obtain ⟨body, hbody⟩ := ha.exists_body rest
  obtain ⟨body', hbody'⟩ := hb.exists_body rest'
  rw [hbody, hbody'] at h
  obtain ⟨hopening, -⟩ :=
    IsLexeme.append_space_inj (.inr a.isWord_opening) (.inr b.isWord_opening) h
  exact String.toList_inj.1 hopening

/-- No other legible node is rendered alike, and the text behind the node is told apart. -/
def Node.SelfDelimiting (a : Node) : Prop :=
  ∀ ⦃b : Node⦄, b.Legible → ∀ ⦃rest rest' : List Char⦄,
    a.renderThen rest = b.renderThen rest' → a = b ∧ rest = rest'

theorem operands_inj {lhs rhs lhs' rhs' : Node} (hlhs : lhs.SelfDelimiting)
    (hrhs : rhs.SelfDelimiting) (hlhs' : lhs'.Legible) (hrhs' : rhs'.Legible)
    {rest rest' : List Char}
    (h : lhs.renderThen (' ' :: rhs.renderThen (')' :: rest)) =
      lhs'.renderThen (' ' :: rhs'.renderThen (')' :: rest'))) :
    lhs = lhs' ∧ rhs = rhs' ∧ rest = rest' := by
  obtain ⟨hleft, hbehind⟩ := hlhs hlhs' h
  obtain ⟨hright, hclosed⟩ := hrhs hrhs' (List.cons.inj hbehind).2
  exact ⟨hleft, hright, (List.cons.inj hclosed).2⟩

theorem ControlOperator.append_space_inj (op op' : ControlOperator) {text text' : List Char}
    (h : op.spelling.toList ++ ' ' :: text = op'.spelling.toList ++ ' ' :: text') :
    op = op' ∧ text = text' := by
  obtain ⟨hop, htext⟩ := IsLexeme.append_space_inj (.inl (isOperator_spelling_control op))
    (.inl (isOperator_spelling_control op')) h
  exact ⟨ControlOperator.spelling_injective (String.toList_inj.1 hop), htext⟩

theorem Node.Legible.selfDelimiting : ∀ {a : Node}, a.Legible → a.SelfDelimiting
  | .sequence op lhs rhs, hnode@⟨hlhs, hrhs⟩, b, hb, rest, rest', h => by
    have hopening := opening_eq hnode hb h
    cases b with
    | sequence op' lhs' rhs' =>
      obtain ⟨⟨⟩, hbody⟩ := ControlOperator.append_space_inj (.separator op) (.separator op')
        (List.append_cancel_left h)
      obtain ⟨rfl, rfl, hrest⟩ :=
        operands_inj hlhs.selfDelimiting hrhs.selfDelimiting hb.1 hb.2 hbody
      exact ⟨rfl, hrest⟩
    | terminated op' lhs' =>
      have hlhs' : lhs'.Legible := hb
      obtain ⟨⟨⟩, hbody⟩ := ControlOperator.append_space_inj (.separator op) (.separator op')
        (List.append_cancel_left h)
      obtain ⟨-, hbehind⟩ := hlhs.selfDelimiting hlhs' hbody
      cases hbehind
    | _ => simp [opening] at hopening
  | .terminated op lhs, hnode, b, hb, rest, rest', h => by
    have hlhs : lhs.Legible := hnode
    have hopening := opening_eq hnode hb h
    cases b with
    | terminated op' lhs' =>
      have hlhs' : lhs'.Legible := hb
      obtain ⟨⟨⟩, hbody⟩ := ControlOperator.append_space_inj (.separator op) (.separator op')
        (List.append_cancel_left h)
      obtain ⟨rfl, hclosed⟩ := hlhs.selfDelimiting hlhs' hbody
      exact ⟨rfl, (List.cons.inj hclosed).2⟩
    | sequence op' lhs' rhs' =>
      obtain ⟨⟨⟩, hbody⟩ := ControlOperator.append_space_inj (.separator op) (.separator op')
        (List.append_cancel_left h)
      obtain ⟨-, hbehind⟩ := hlhs.selfDelimiting hb.1 hbody
      cases hbehind
    | _ => simp [opening] at hopening
  | .conditional op lhs rhs, hnode@⟨hlhs, hrhs⟩, b, hb, rest, rest', h => by
    have hopening := opening_eq hnode hb h
    cases b with
    | conditional op' lhs' rhs' =>
      obtain ⟨⟨⟩, hbody⟩ := ControlOperator.append_space_inj (.conditional op) (.conditional op')
        (List.append_cancel_left h)
      obtain ⟨rfl, rfl, hrest⟩ :=
        operands_inj hlhs.selfDelimiting hrhs.selfDelimiting hb.1 hb.2 hbody
      exact ⟨rfl, hrest⟩
    | _ => simp [opening] at hopening
  | .pipe lhs rhs, hnode@⟨hlhs, hrhs⟩, b, hb, rest, rest', h => by
    have hopening := opening_eq hnode hb h
    cases b with
    | pipe lhs' rhs' =>
      obtain ⟨rfl, rfl, hrest⟩ := operands_inj hlhs.selfDelimiting hrhs.selfDelimiting
        hb.1 hb.2 (List.append_cancel_left h)
      exact ⟨rfl, hrest⟩
    | _ => simp [opening] at hopening
  | .simple command, hcommand, b, hb, rest, rest', h => by
    have hopening := opening_eq hcommand hb h
    cases b with
    | simple command' =>
      obtain ⟨rfl, hrest⟩ := SimpleCommand.Canonical.renderThen_inj hcommand hb h
      exact ⟨rfl, hrest⟩
    | _ => simp [opening] at hopening

/-! ## Programs -/

theorem Node.renderThen_ne_nil (node : Node) (rest : List Char) : node.renderThen rest ≠ [] := by
  cases node <;> exact nofun

theorem Program.Canonical.eq_of_render_eq {a b : Program} (ha : a.Canonical) (hb : b.Canonical)
    (h : a.render = b.render) : a = b := by
  obtain ⟨nodes⟩ := a
  obtain ⟨nodes'⟩ := b
  obtain ⟨hlength, hnodes⟩ := ha
  obtain ⟨hlength', hnodes'⟩ := hb
  have hchars : Program.chars ⟨nodes⟩ = Program.chars ⟨nodes'⟩ := String.ofList_injective h
  match nodes, nodes', hlength, hlength', hnodes, hnodes', hchars with
  | [], [], _, _, _, _, _ => rfl
  | [], [node'], _, _, _, _, hchars => exact absurd hchars.symm (node'.renderThen_ne_nil [])
  | [node], [], _, _, _, _, hchars => exact absurd hchars (node.renderThen_ne_nil [])
  | [node], [node'], _, _, hnodes, hnodes', hchars =>
    have hnode := (hnodes node (List.mem_singleton_self node)).legible
    have hnode' := (hnodes' node' (List.mem_singleton_self node')).legible
    obtain ⟨rfl, -⟩ := hnode.selfDelimiting hnode' hchars
    rfl

/-- Two parsed programs that are rendered alike are the same program. -/
theorem render_injective_on_parsed {a b : String} {p q : Program} (ha : parse a = .ok p)
    (hb : parse b = .ok q) (h : p.render = q.render) : p = q :=
  (Program.Canonical.of_parse ha).eq_of_render_eq (Program.Canonical.of_parse hb) h

/-- The words read like the end of the arguments and the beginning of a redirection. -/
theorem render_injective_on_bracket_words :
    ∃ p q, parse "x ] (redirection 2 >y" = .ok p ∧ parse "x\t> y ]\n(redirection 2" = .ok q ∧
      p.render = q.render ∧ p = q := by
  have ha : parse "x ] (redirection 2 >y" = .ok
      ⟨[.simple ⟨"x", ["]", "(redirection", "2"], [⟨none, .write, "y"⟩]⟩]⟩ := by
    decide +kernel
  have hb : parse "x\t> y ]\n(redirection 2" = .ok
      ⟨[.simple ⟨"x", ["]", "(redirection", "2"], [⟨none, .write, "y"⟩]⟩]⟩ := by
    decide +kernel
  exact ⟨_, _, ha, hb, rfl, render_injective_on_parsed ha hb rfl⟩

end ShellLine
