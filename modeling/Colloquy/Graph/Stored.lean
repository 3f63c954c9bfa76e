import Colloquy.Graph
import Colloquy.Json.Schema

/-!
# Graphs in files

A graph is stored as an object with a version and the list of its nodes. Reading checks the data
against `graphSchema` first and then takes the fields out of it; a list of nodes with a repeated
tag is refused.
-/

namespace Colloquy

/-- The version of the format. -/
def formatVersion : Nat := 1

/-! ## Writing -/

/-- A command as the files hold it. -/
def Command.toJson (command : Command) : Json :=
  .object [("name", .text command.name),
    ("parameter", (command.parameter.map Json.text).getD .null)]

/-- A choice as the files hold it. -/
def Choice.toJson (choice : Choice) : Json :=
  .object [("text", .text choice.text), ("target_tag", .text choice.target)]

/-- A node as the files hold it. -/
def Node.toJson (node : Node) : Json :=
  .object [("tag", .text node.tag), ("character_id", .text node.speaker), ("text", .text node.text),
    ("commands", .array (node.commands.map Command.toJson)),
    ("choices", .array (node.choices.map Choice.toJson))]

/-- A graph as the files hold it. -/
def Graph.toJson (graph : Graph) : Json :=
  .object [("version", .int formatVersion), ("nodes", .array (graph.nodes.map Node.toJson))]

/-! ## Reading -/

/-- The stored form of a command. -/
def commandSchema : Json.Schema :=
  .object ["name"] true [("name", .text true), ("parameter", .textOrNull)]

/-- The stored form of a choice. -/
def choiceSchema : Json.Schema :=
  .object ["text", "target_tag"] true [("text", .text false), ("target_tag", .text false)]

/-- The stored form of a node. -/
def nodeSchema : Json.Schema :=
  .object ["tag", "character_id", "text", "commands", "choices"] true
    [("tag", .text true), ("character_id", .text false), ("text", .text false),
      ("commands", .array commandSchema), ("choices", .array choiceSchema)]

/-- The stored form of a graph. -/
def graphSchema : Json.Schema :=
  .object ["nodes"] false [("version", .integer), ("nodes", .array nodeSchema)]

/-- The text under a name, in data that is known to have it. -/
def Json.textAt (data : Json) (name : String) : String :=
  match data.get? name with
  | some (.text s) => s
  | _ => ""

/-- The items under a name, in data that is known to have them. -/
def Json.itemsAt (data : Json) (name : String) : List Json :=
  match data.get? name with
  | some (.array items) => items
  | _ => []

/-- The command in data that the schema admits. -/
def Command.ofJson (data : Json) : Command where
  name := data.textAt "name"
  parameter :=
    match data.get? "parameter" with
    | some (.text s) => some s
    | _ => none

/-- The choice in data that the schema admits. -/
def Choice.ofJson (data : Json) : Choice where
  text := data.textAt "text"
  target := data.textAt "target_tag"

/-- The node in data that the schema admits. -/
def Node.ofJson (data : Json) : Node where
  tag := data.textAt "tag"
  speaker := data.textAt "character_id"
  text := data.textAt "text"
  commands := (data.itemsAt "commands").map Command.ofJson
  choices := (data.itemsAt "choices").map Choice.ofJson

/-- Why data is not a stored graph. -/
inductive GraphDefect where
  | violation (violation : Json.Violation)
  | duplicate (mistake : DuplicateTag)

/-- A defect in words. -/
def GraphDefect.message : GraphDefect → String
  | .violation found => "Invalid dialogue graph: " ++ found.fault.message
  | .duplicate mistake => "Invalid dialogue graph: " ++ mistake.message

/-- The graph that data stands for. -/
def Graph.ofJson (data : Json) : Except GraphDefect Graph :=
  match graphSchema.check data with
  | .error violation => .error (.violation violation)
  | .ok () =>
    match Graph.ofNodes ((data.itemsAt "nodes").map Node.ofJson) with
    | .error mistake => .error (.duplicate mistake)
    | .ok graph => .ok graph

end Colloquy
