import ShellLine.Json.Basic
import ShellLine.Program.Basic

/-!
# Programs as JSON

A node is an object with the name of its form first and its parts behind it. A
sequence that ends in its separator has no right part, which is written as null.
-/

namespace ShellLine

def Redirection.toJson (redirection : Redirection) : Json :=
  .object
    [("io_number",
        match redirection.descriptor with
        | some descriptor => .number descriptor.toNat
        | none => .null),
     ("operator", .string redirection.operator.spelling),
     ("file", .string redirection.target)]

def SimpleCommand.toJson (command : SimpleCommand) : Json :=
  .object
    [("type", .string "SimpleCommand"), ("name", .string command.name),
     ("params", .array (command.arguments.map .string)),
     ("redirections", .array (command.redirections.map Redirection.toJson))]

mutual

def Node.toJson : Node → Json
  | .sequence op lhs rhs =>
    .object
      [("type", .string "Sequence"), ("separator", .string op.spelling), ("lhs", lhs.toJson),
       ("rhs", rhs.toJson)]
  | .terminated op lhs =>
    .object
      [("type", .string "Sequence"), ("separator", .string op.spelling), ("lhs", lhs.toJson),
       ("rhs", .null)]
  | .conditional op lhs rhs =>
    .object
      [("type", .string "Conditional"), ("operator", .string op.spelling), ("lhs", lhs.toJson),
       ("rhs", rhs.toJson)]
  | .pipe lhs rhs =>
    .object [("type", .string "Pipe"), ("lhs", lhs.toJson), ("rhs", rhs.toJson)]
  | .simple command => command.toJson
  | .subshell nodes =>
    .object [("type", .string "Subshell"), ("nodes", .array (Node.toJsonEach nodes))]

def Node.toJsonEach : List Node → List Json
  | [] => []
  | node :: nodes => node.toJson :: Node.toJsonEach nodes

end

def Program.toJson (program : Program) : Json :=
  .object [("nodes", .array (Node.toJsonEach program.nodes))]

end ShellLine
