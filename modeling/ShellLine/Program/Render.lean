import ShellLine.Program.Basic
import ShellLine.Text.Joined

/-!
# The rendered form of a program

A program is shown in parentheses: each node by its name, its operator and its
parts, with one space between them. Words stand as they are, without quotes. Each
part is written in front of the text that follows it, so that long chains of
operators are written in one pass. What comes out is what writing each part by
itself gives.
-/

namespace ShellLine

def Redirection.renderThen (redirection : Redirection) (rest : List Char) : List Char :=
  let operator := redirection.operator.spelling.toList
  let behind := operator ++ ' ' :: (redirection.target.toList ++ ')' :: rest)
  match redirection.descriptor with
  | some descriptor =>
    "(redirection ".toList ++ ((toString descriptor.toNat).toList ++ ' ' :: behind)
  | none => "(redirection ".toList ++ behind

/-- Redirections in order, each with a space in front. -/
def Redirection.renderEachThen : List Redirection → List Char → List Char
  | [], rest => rest
  | redirection :: redirections, rest =>
    ' ' :: redirection.renderThen (renderEachThen redirections rest)

/-- The arguments stand in brackets behind the name, and the redirections follow. -/
def SimpleCommand.renderThen (command : SimpleCommand) (rest : List Char) : List Char :=
  "(simpleCommand ".toList ++
    (command.name.toList ++
      (" [".toList ++
        Text.joinThen [' '] command.arguments
          (']' :: Redirection.renderEachThen command.redirections (')' :: rest))))

mutual

def Node.renderThen : Node → List Char → List Char
  | .sequence op lhs rhs, rest =>
    "(sequence ".toList ++
      (op.spelling.toList ++ ' ' :: lhs.renderThen (' ' :: rhs.renderThen (')' :: rest)))
  | .terminated op lhs, rest =>
    "(sequence ".toList ++ (op.spelling.toList ++ ' ' :: lhs.renderThen (')' :: rest))
  | .conditional op lhs rhs, rest =>
    "(conditional ".toList ++
      (op.spelling.toList ++ ' ' :: lhs.renderThen (' ' :: rhs.renderThen (')' :: rest)))
  | .pipe lhs rhs, rest =>
    "(pipe ".toList ++ lhs.renderThen (' ' :: rhs.renderThen (')' :: rest))
  | .simple command, rest => command.renderThen rest
  | .subshell nodes, rest => "(subshell".toList ++ Node.renderEachThen nodes (')' :: rest)

/-- Nodes in order, each with a space in front. -/
def Node.renderEachThen : List Node → List Char → List Char
  | [], rest => rest
  | node :: nodes, rest => ' ' :: node.renderThen (Node.renderEachThen nodes rest)

end

/-- The nodes of a program with one space between them. -/
def Program.chars (program : Program) : List Char :=
  match program.nodes with
  | [] => []
  | node :: nodes => node.renderThen (Node.renderEachThen nodes [])

def Redirection.render (redirection : Redirection) : String :=
  String.ofList (redirection.renderThen [])

def Node.render (node : Node) : String :=
  String.ofList (node.renderThen [])

def Program.render (program : Program) : String :=
  String.ofList program.chars

/-! ## The text behind a part stays as it is -/

theorem Redirection.renderThen_append (redirection : Redirection) (rest more : List Char) :
    redirection.renderThen (rest ++ more) = redirection.renderThen rest ++ more := by
  unfold renderThen
  split <;> simp

theorem Redirection.renderEachThen_append (redirections : List Redirection)
    (rest more : List Char) :
    renderEachThen redirections (rest ++ more) = renderEachThen redirections rest ++ more := by
  induction redirections with
  | nil => rfl
  | cons redirection redirections ih => simp [renderEachThen, ih, renderThen_append]

theorem SimpleCommand.renderThen_append (command : SimpleCommand) (rest more : List Char) :
    command.renderThen (rest ++ more) = command.renderThen rest ++ more := by
  unfold renderThen
  rw [← List.cons_append, Redirection.renderEachThen_append, ← List.cons_append,
    Text.joinThen_append]
  simp only [List.append_assoc]

mutual

theorem Node.renderThen_append (node : Node) (rest more : List Char) :
    node.renderThen (rest ++ more) = node.renderThen rest ++ more := by
  cases node with
  | sequence op lhs rhs =>
    unfold renderThen
    rw [← List.cons_append, renderThen_append rhs, ← List.cons_append, renderThen_append lhs]
    simp only [List.append_assoc, List.cons_append]
  | terminated op lhs =>
    unfold renderThen
    rw [← List.cons_append, renderThen_append lhs]
    simp only [List.append_assoc, List.cons_append]
  | conditional op lhs rhs =>
    unfold renderThen
    rw [← List.cons_append, renderThen_append rhs, ← List.cons_append, renderThen_append lhs]
    simp only [List.append_assoc, List.cons_append]
  | pipe lhs rhs =>
    unfold renderThen
    rw [← List.cons_append, renderThen_append rhs, ← List.cons_append, renderThen_append lhs]
    simp only [List.append_assoc]
  | simple command => exact command.renderThen_append rest more
  | subshell nodes =>
    unfold renderThen
    rw [← List.cons_append, renderEachThen_append nodes]
    simp only [List.append_assoc]

theorem Node.renderEachThen_append (nodes : List Node) (rest more : List Char) :
    renderEachThen nodes (rest ++ more) = renderEachThen nodes rest ++ more := by
  cases nodes with
  | nil => rfl
  | cons node nodes =>
    unfold renderEachThen
    rw [renderEachThen_append nodes, renderThen_append node, List.cons_append]

end

/-! ## Parts are rendered by themselves -/

/-- In front of any text stands what a redirection alone is rendered as. -/
theorem Redirection.renderThen_eq (redirection : Redirection) (rest : List Char) :
    redirection.renderThen rest = redirection.render.toList ++ rest := by
  rw [render, String.toList_ofList, ← renderThen_append, List.nil_append]

/-- In front of any text stands what a node alone is rendered as. -/
theorem Node.renderThen_eq (node : Node) (rest : List Char) :
    node.renderThen rest = node.render.toList ++ rest := by
  rw [render, String.toList_ofList, ← renderThen_append, List.nil_append]

theorem Redirection.renderEachThen_eq (redirections : List Redirection) (rest : List Char) :
    renderEachThen redirections rest =
      (String.join (redirections.map fun redirection ↦ " " ++ redirection.render)).toList ++
        rest := by
  induction redirections with
  | nil => simp [renderEachThen]
  | cons redirection redirections ih =>
    rw [renderEachThen, renderThen_eq, ih]
    simp

theorem Node.renderEachThen_eq (nodes : List Node) (rest : List Char) :
    renderEachThen nodes rest =
      (String.join (nodes.map fun node ↦ " " ++ node.render)).toList ++ rest := by
  induction nodes with
  | nil => simp [renderEachThen]
  | cons node nodes ih =>
    rw [renderEachThen, renderThen_eq, ih]
    simp

/-- What a node is rendered as, by what its parts are rendered as. -/
theorem Node.render_eq (node : Node) : node.render =
    match node with
    | .sequence op lhs rhs =>
      "(sequence " ++ op.spelling ++ " " ++ lhs.render ++ " " ++ rhs.render ++ ")"
    | .terminated op lhs => "(sequence " ++ op.spelling ++ " " ++ lhs.render ++ ")"
    | .conditional op lhs rhs =>
      "(conditional " ++ op.spelling ++ " " ++ lhs.render ++ " " ++ rhs.render ++ ")"
    | .pipe lhs rhs => "(pipe " ++ lhs.render ++ " " ++ rhs.render ++ ")"
    | .simple command =>
      "(simpleCommand " ++ command.name ++ " [" ++ " ".intercalate command.arguments ++ "]" ++
        String.join (command.redirections.map fun redirection ↦ " " ++ redirection.render) ++ ")"
    | .subshell nodes =>
      "(subshell" ++ String.join (nodes.map fun node ↦ " " ++ node.render) ++ ")" := by
  apply String.toList_inj.1
  rw [render, String.toList_ofList]
  cases node with
  | sequence op lhs rhs =>
    unfold renderThen
    rw [renderThen_eq lhs, renderThen_eq rhs]
    simp
  | terminated op lhs =>
    unfold renderThen
    rw [renderThen_eq lhs]
    simp
  | conditional op lhs rhs =>
    unfold renderThen
    rw [renderThen_eq lhs, renderThen_eq rhs]
    simp
  | pipe lhs rhs =>
    unfold renderThen
    rw [renderThen_eq lhs, renderThen_eq rhs]
    simp
  | simple command =>
    unfold renderThen SimpleCommand.renderThen
    rw [Text.joinThen_eq_intercalate, Redirection.renderEachThen_eq]
    simp
  | subshell nodes =>
    unfold renderThen
    rw [renderEachThen_eq]
    simp

theorem Node.renderThen_renderEachThen (node : Node) (nodes : List Node) :
    node.renderThen (renderEachThen nodes []) =
      (" ".intercalate ((node :: nodes).map render)).toList := by
  induction nodes generalizing node with
  | nil => simp [renderThen_eq, renderEachThen]
  | cons next nodes ih =>
    unfold renderEachThen
    rw [renderThen_eq, ih next]
    simp [String.intercalate_cons_cons]

/-- A program is rendered as its nodes are, with a space between any two. -/
theorem Program.render_eq_intercalate (program : Program) :
    program.render = " ".intercalate (program.nodes.map Node.render) := by
  obtain ⟨nodes⟩ := program
  cases nodes with
  | nil => rfl
  | cons node nodes =>
    apply String.toList_inj.1
    rw [render, String.toList_ofList]
    exact node.renderThen_renderEachThen nodes

end ShellLine
