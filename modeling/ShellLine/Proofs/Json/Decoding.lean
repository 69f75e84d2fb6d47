import ShellLine.Echo.Lines
import ShellLine.Proofs.Json.Written

/-!
# Programs and tokens from JSON

A value is taken apart by the keys of its objects, in whatever order they stand, as long
as the key that is looked up stands there once. A part is smaller than the value it
stands in, so the nodes of a program are taken apart by recursion.

A program and a list of tokens are rebuilt from the JSON that is shown for them. Nothing
is asked of the words in them: they may hold control characters, quotation marks or
nothing at all.
-/

namespace ShellLine

/-! ## Parts of a value -/

namespace Json

/-- What stands under a key, if the key stands once in the object. -/
def field? (key : String) (json : Json) : Option {part : Json // sizeOf part < sizeOf json} :=
  match json with
  | .object fields =>
    match h : fields.filter (·.1 == key) with
    | [(name, part)] => some ⟨part, by
        have hmem : (name, part) ∈ fields := (List.mem_filter.1 (h ▸ List.mem_cons_self)).1
        have hfield := List.sizeOf_lt_of_mem hmem
        rw [Prod.mk.sizeOf_spec] at hfield
        rw [object.sizeOf_spec]
        omega⟩
    | _ => none
  | _ => none

def items? (json : Json) : Option {items : List Json // sizeOf items < sizeOf json} :=
  match json with
  | .array items => some ⟨items, by rw [array.sizeOf_spec]; omega⟩
  | _ => none

def isNull : Json → Bool
  | .null => true
  | _ => false

def text? : Json → Option String
  | .string text => some text
  | _ => none

def natural? : Json → Option Nat
  | .number value => some value
  | _ => none

def textAt? (key : String) (json : Json) : Option String :=
  (json.field? key).bind fun part ↦ part.1.text?

def naturalAt? (key : String) (json : Json) : Option Nat :=
  (json.field? key).bind fun part ↦ part.1.natural?

/-- The items of an array, each taken apart by `item?`. -/
def each? {α : Type} (item? : Json → Option α) (json : Json) : Option (List α) :=
  json.items?.bind fun items ↦ items.1.mapM item?

theorem each?_map {α : Type} {item? : Json → Option α} {f : α → Json}
    (h : ∀ a, item? (f a) = some a) (items : List α) :
    each? item? (.array (items.map f)) = some items := by
  change (items.map f).mapM item? = some items
  induction items with
  | nil => rfl
  | cons a items ih =>
    rw [List.map_cons, List.mapM_cons, h, ih]
    rfl

end Json

/-! ## Operators -/

section Spelling

variable {α : Type} {all : List α} {spelling : α → String}

theorem find?_spelling (hall : ∀ a, a ∈ all) (hspelling : ∀ {a b}, spelling a = spelling b → a = b)
    (a : α) : all.find? (spelling · == spelling a) = some a := by
  cases h : all.find? (spelling · == spelling a) with
  | none => exact absurd (beq_self_eq_true (spelling a)) (List.find?_eq_none.1 h a (hall a))
  | some b =>
    have hb : (spelling b == spelling a) = true := List.find?_some (p := (spelling · == _)) h
    rw [hspelling (eq_of_beq hb)]

end Spelling

def Separator.ofSpelling? (text : String) : Option Separator :=
  all.find? (spelling · == text)

def Conditional.ofSpelling? (text : String) : Option Conditional :=
  all.find? (spelling · == text)

def RedirectionOperator.ofSpelling? (text : String) : Option RedirectionOperator :=
  all.find? (spelling · == text)

theorem Separator.ofSpelling?_spelling (op : Separator) : ofSpelling? op.spelling = some op :=
  find?_spelling mem_all spelling_injective op

theorem Conditional.ofSpelling?_spelling (op : Conditional) : ofSpelling? op.spelling = some op :=
  find?_spelling mem_all spelling_injective op

theorem RedirectionOperator.ofSpelling?_spelling (op : RedirectionOperator) :
    ofSpelling? op.spelling = some op :=
  find?_spelling mem_all spelling_injective op

/-! ## Commands -/

/-- A descriptor, or none for null. -/
def descriptorOfJson? : Json → Option (Option UInt32)
  | .null => some none
  | .number value => if value < UInt32.size then some (some (UInt32.ofNat value)) else none
  | _ => none

def Redirection.ofJson? (json : Json) : Option Redirection := do
  let descriptor ← descriptorOfJson? (← json.field? "io_number")
  let operator ← RedirectionOperator.ofSpelling? (← json.textAt? "operator")
  let target ← json.textAt? "file"
  some ⟨descriptor, operator, target⟩

def SimpleCommand.ofJson? (json : Json) : Option SimpleCommand := do
  let name ← json.textAt? "name"
  let arguments ← (← json.field? "params").1.each? Json.text?
  let redirections ← (← json.field? "redirections").1.each? Redirection.ofJson?
  some ⟨name, arguments, redirections⟩

theorem descriptorOfJson?_number (descriptor : UInt32) :
    descriptorOfJson? (.number descriptor.toNat) = some (some descriptor) := by
  rw [descriptorOfJson?, if_pos descriptor.toNat_lt_size, UInt32.ofNat_toNat]

theorem Redirection.ofJson?_toJson (redirection : Redirection) :
    ofJson? redirection.toJson = some redirection := by
  obtain ⟨descriptor, operator, target⟩ := redirection
  have hoperator := RedirectionOperator.ofSpelling?_spelling operator
  cases descriptor with
  | none =>
    change (RedirectionOperator.ofSpelling? operator.spelling).bind _ = _
    rw [hoperator]
    rfl
  | some descriptor =>
    change (descriptorOfJson? (.number descriptor.toNat)).bind _ = _
    rw [descriptorOfJson?_number]
    change (RedirectionOperator.ofSpelling? operator.spelling).bind _ = _
    rw [hoperator]
    rfl

theorem SimpleCommand.ofJson?_toJson (command : SimpleCommand) :
    ofJson? command.toJson = some command := by
  obtain ⟨name, arguments, redirections⟩ := command
  have harguments : Json.each? Json.text? (.array (arguments.map .string)) = some arguments :=
    Json.each?_map (f := .string) (fun _ ↦ rfl) arguments
  have hredirections := Json.each?_map Redirection.ofJson?_toJson redirections
  change (Json.each? Json.text? (.array (arguments.map .string))).bind _ = _
  rw [harguments]
  change (Json.each? Redirection.ofJson? (.array (redirections.map Redirection.toJson))).bind _ = _
  rw [hredirections]
  rfl

/-! ## Nodes -/

mutual

def Node.ofJson? (json : Json) : Option Node :=
  match json.textAt? "type" with
  | some "Sequence" => do
    let op ← Separator.ofSpelling? (← json.textAt? "separator")
    let ⟨lhs, _⟩ ← json.field? "lhs"
    let ⟨rhs, _⟩ ← json.field? "rhs"
    let lhs ← Node.ofJson? lhs
    if rhs.isNull then some (.terminated op lhs) else (Node.ofJson? rhs).map (.sequence op lhs)
  | some "Conditional" => do
    let op ← Conditional.ofSpelling? (← json.textAt? "operator")
    let ⟨lhs, _⟩ ← json.field? "lhs"
    let ⟨rhs, _⟩ ← json.field? "rhs"
    let lhs ← Node.ofJson? lhs
    (Node.ofJson? rhs).map (.conditional op lhs)
  | some "Pipe" => do
    let ⟨lhs, _⟩ ← json.field? "lhs"
    let ⟨rhs, _⟩ ← json.field? "rhs"
    let lhs ← Node.ofJson? lhs
    (Node.ofJson? rhs).map (.pipe lhs)
  | some "SimpleCommand" => (SimpleCommand.ofJson? json).map .simple
  | some "Subshell" => do
    let ⟨nodes, _⟩ ← json.field? "nodes"
    let ⟨items, _⟩ ← nodes.items?
    (Node.ofJsonEach? items).map .subshell
  | _ => none
termination_by sizeOf json

def Node.ofJsonEach? : List Json → Option (List Node)
  | [] => some []
  | json :: items => do
    let node ← Node.ofJson? json
    (Node.ofJsonEach? items).map (node :: ·)
termination_by items => sizeOf items

end

theorem Node.isNull_toJson (node : Node) : node.toJson.isNull = false := by
  cases node <;> rfl

mutual

theorem Node.ofJson?_toJson (node : Node) : Node.ofJson? node.toJson = some node := by
  cases node with
  | sequence op lhs rhs =>
    rw [Node.ofJson?]
    change ((Separator.ofSpelling? op.spelling).bind fun op ↦
      (Node.ofJson? lhs.toJson).bind fun lhs ↦
        if rhs.toJson.isNull then some (Node.terminated op lhs)
        else (Node.ofJson? rhs.toJson).map (Node.sequence op lhs)) = _
    rw [Separator.ofSpelling?_spelling, Node.ofJson?_toJson lhs, Node.ofJson?_toJson rhs,
      rhs.isNull_toJson]
    rfl
  | terminated op lhs =>
    rw [Node.ofJson?]
    change ((Separator.ofSpelling? op.spelling).bind fun op ↦
      (Node.ofJson? lhs.toJson).bind fun lhs ↦ some (Node.terminated op lhs)) = _
    rw [Separator.ofSpelling?_spelling, Node.ofJson?_toJson lhs]
    rfl
  | conditional op lhs rhs =>
    rw [Node.ofJson?]
    change ((Conditional.ofSpelling? op.spelling).bind fun op ↦
      (Node.ofJson? lhs.toJson).bind fun lhs ↦
        (Node.ofJson? rhs.toJson).map (Node.conditional op lhs)) = _
    rw [Conditional.ofSpelling?_spelling, Node.ofJson?_toJson lhs, Node.ofJson?_toJson rhs]
    rfl
  | pipe lhs rhs =>
    rw [Node.ofJson?]
    change ((Node.ofJson? lhs.toJson).bind fun lhs ↦
      (Node.ofJson? rhs.toJson).map (Node.pipe lhs)) = _
    rw [Node.ofJson?_toJson lhs, Node.ofJson?_toJson rhs]
    rfl
  | simple command =>
    rw [Node.ofJson?]
    change (SimpleCommand.ofJson? command.toJson).map Node.simple = _
    rw [SimpleCommand.ofJson?_toJson]
    rfl
  | subshell nodes =>
    rw [Node.ofJson?]
    change (Node.ofJsonEach? (Node.toJsonEach nodes)).map Node.subshell = _
    rw [Node.ofJsonEach?_toJsonEach nodes]
    rfl

theorem Node.ofJsonEach?_toJsonEach (nodes : List Node) :
    Node.ofJsonEach? (Node.toJsonEach nodes) = some nodes := by
  match nodes with
  | [] => rw [Node.toJsonEach, Node.ofJsonEach?]
  | node :: nodes =>
    rw [Node.toJsonEach, Node.ofJsonEach?, Node.ofJson?_toJson node,
      Node.ofJsonEach?_toJsonEach nodes]
    rfl

end

/-! ## Programs and tokens -/

def Program.ofJson? (json : Json) : Option Program := do
  let nodes ← (← json.field? "nodes").1.items?
  (Node.ofJsonEach? nodes).map Program.mk

theorem Program.ofJson?_toJson (program : Program) : ofJson? program.toJson = some program := by
  change (Node.ofJsonEach? (Node.toJsonEach program.nodes)).map Program.mk = some program
  rw [Node.ofJsonEach?_toJsonEach]
  rfl

def Token.ofJson? (json : Json) : Option Token := do
  let kind ← Kind.ofName? (← json.textAt? "token_type")
  let value ← json.textAt? "value"
  let line ← json.naturalAt? "line"
  let column ← json.naturalAt? "column"
  some ⟨kind, value, ⟨line, column⟩⟩

theorem Token.ofJson?_toJson (token : Token) : ofJson? token.toJson = some token := by
  change (Kind.ofName? token.kind.name).bind _ = some token
  rw [Kind.ofName?_name]
  rfl

namespace Echo

/-- The program that a text shows as JSON. -/
def readProgram? (text : String) : Option Program :=
  (Json.read? text).bind Program.ofJson?

/-- The tokens that a text shows as JSON. -/
def readTokens? (text : String) : Option (List Token) :=
  (Json.read? text).bind (Json.each? Token.ofJson?)

theorem readProgram?_showProgram (program : Program) :
    readProgram? (showProgram true program) = some program := by
  change (Json.read? program.toJson.compact).bind Program.ofJson? = some program
  rw [Json.read?_compact]
  exact program.ofJson?_toJson

theorem readTokens?_showTokens (tokens : List Token) :
    readTokens? (showTokens true tokens) = some tokens := by
  change (Json.read? (Json.array (tokens.map Token.toJson)).compact).bind _ = some tokens
  rw [Json.read?_compact]
  exact Json.each?_map Token.ofJson?_toJson tokens

/-- What is shown as JSON is one line, is read back as what it shows, and shows nothing else. -/
theorem json_faithful :
    ((∀ program, Json.Printable (showProgram true program).toList ∧
        readProgram? (showProgram true program) = some program) ∧
      (showProgram true).Injective) ∧
    (∀ tokens, Json.Printable (showTokens true tokens).toList ∧
        readTokens? (showTokens true tokens) = some tokens) ∧
      (showTokens true).Injective := by
  refine ⟨⟨fun program ↦ ⟨?_, readProgram?_showProgram program⟩, fun a b h ↦ ?_⟩,
    fun tokens ↦ ⟨?_, readTokens?_showTokens tokens⟩, fun a b h ↦ ?_⟩
  · exact Json.printable_compact program.toJson
  · have hread := readProgram?_showProgram a
    rw [h, readProgram?_showProgram] at hread
    exact (Option.some.inj hread).symm
  · exact Json.printable_compact (.array (tokens.map Token.toJson))
  · have hread := readTokens?_showTokens a
    rw [h, readTokens?_showTokens] at hread
    exact (Option.some.inj hread).symm

/-- The words of the program hold a line feed, an escape character, a quotation mark, a backslash
or nothing, and its descriptor is the largest. -/
theorem json_faithful_in_subshell :
    ∃ program,
      showProgram true program =
        "\x7b\"nodes\":[\x7b\"type\":\"Subshell\",\"nodes\":[\x7b\"type\":\"Sequence\"," ++
        "\"separator\":\"&\",\"lhs\":\x7b\"type\":\"SimpleCommand\",\"name\":\"\\n\\u001b\"," ++
        "\"params\":[\"\\\"\\\\\"],\"redirections\":[\x7b\"io_number\":4294967295," ++
        "\"operator\":\"<<-\",\"file\":\"\"\x7d]\x7d,\"rhs\":null\x7d]\x7d]\x7d" ∧
      Json.Printable (showProgram true program).toList ∧
      readProgram? (showProgram true program) = some program ∧
      showProgram true program ≠ showProgram true ⟨[]⟩ := by
  let node : Node := .terminated .ampersand
    (.simple ⟨"\n\x1b", ["\"\\"], [⟨some 4294967295, .hereDocumentStripped, ""⟩]⟩)
  obtain ⟨hline, hread⟩ := json_faithful.1.1 ⟨[.subshell [node]]⟩
  refine ⟨_, by decide +kernel, hline, hread, fun h ↦ ?_⟩
  cases json_faithful.1.2 h

end Echo

end ShellLine
