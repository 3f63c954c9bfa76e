import Colloquy.Graph.Stored

/-!
# Records

Hosts build commands, choices and nodes from data of their own. The data is checked field by
field, and all faults are reported: those of the fields in the order of the record, then the names
that no field has. Fields that may be left out have a default.
-/

namespace Colloquy

/-- The kinds of records. -/
inductive Record.Shape where
  | command
  | choice
  | node
  deriving DecidableEq, Repr

/-- A record of any kind. -/
inductive Record where
  | command (command : Command)
  | choice (choice : Choice)
  | node (node : Node)
  deriving DecidableEq, Repr

namespace Record

/-- What is wrong with a field. -/
inductive Fault where
  | missing
  | notText
  | notList
  | notRecord
  | unknownField
  | frozen
  deriving DecidableEq, Repr

/-- Faults with the places of the fields that have them. -/
abbrev Faults := List (Json.Path × Fault)

/-- A value, or all that is wrong with it. -/
abbrev Checked (α : Type) := Except Faults α

/-- The faults of something that was checked. -/
def faults {α : Type} : Checked α → Faults
  | .ok _ => []
  | .error faults => faults

/-- Moves faults into a part of the data. -/
def within (step : Json.Step) (faults : Faults) : Faults :=
  faults.map fun (path, fault) => (step :: path, fault)

/-- Something checked under a name. -/
def field {α : Type} (data : Json) (name : String) (default : Option α) (read : Json → Checked α) :
    Checked α :=
  match data.get? name, default with
  | some value, _ => (read value).mapError (within (.name name))
  | none, some value => .ok value
  | none, none => .error [([.name name], .missing)]

/-- The fields that a record does not have. -/
def unknown (data : Json) (names : List String) : Faults :=
  match data with
  | .object entries =>
    ((Entries.keys entries).filter (! names.contains ·)).map fun name =>
      ([.name name], .unknownField)
  | _ => []

/-- A text. -/
def text : Json → Checked String
  | .text s => .ok s
  | _ => .error [([], .notText)]

/-- A text that may be left open. -/
def optionalText : Json → Checked (Option String)
  | .null => .ok none
  | data => (text data).map some

/-- The items of a list. -/
def items {α : Type} (read : Json → Checked α) : Json → Checked (List α)
  | .array items =>
    let checked := items.map read
    match checked.zipIdx.flatMap fun (item, place) => within (.index place) (faults item) with
    | [] => .ok (checked.filterMap Except.toOption)
    | all => .error all
  | _ => .error [([], .notList)]

/-- A record, if the data has fields at all. -/
def fielded {α : Type} (read : Json → Checked α) (data : Json) : Checked α :=
  match data with
  | .object _ => read data
  | _ => .error [([], .notRecord)]

/-- The command with the given fields. -/
def readCommand (data : Json) : Checked Command :=
  let name := field data "name" none text
  let parameter := field data "parameter" (some none) optionalText
  match name, parameter, unknown data ["name", "parameter"] with
  | .ok name, .ok parameter, [] => .ok ⟨name, parameter⟩
  | name, parameter, others => .error (faults name ++ faults parameter ++ others)

/-- The choice with the given fields. -/
def readChoice (data : Json) : Checked Choice :=
  let label := field data "text" none text
  let target := field data "target_tag" none text
  match label, target, unknown data ["text", "target_tag"] with
  | .ok label, .ok target, [] => .ok ⟨label, target⟩
  | label, target, others => .error (faults label ++ faults target ++ others)

/-- The node with the given fields. -/
def readNode (data : Json) : Checked Node :=
  let tag := field data "tag" none text
  let speaker := field data "character_id" (some "") text
  let speech := field data "text" (some "") text
  let commands := field data "commands" (some []) (items (fielded readCommand))
  let choices := field data "choices" (some []) (items (fielded readChoice))
  match tag, speaker, speech, commands, choices,
    unknown data ["tag", "character_id", "text", "commands", "choices"] with
  | .ok tag, .ok speaker, .ok speech, .ok commands, .ok choices, [] =>
    .ok ⟨tag, speaker, speech, commands, choices⟩
  | tag, speaker, speech, commands, choices, others =>
    .error (faults tag ++ faults speaker ++ faults speech ++ faults commands ++ faults choices ++
      others)

/-- The record of a shape with the given fields. -/
def read (shape : Shape) (data : Json) : Checked Record :=
  match shape with
  | .command => (readCommand data).map .command
  | .choice => (readChoice data).map .choice
  | .node => (readNode data).map .node

/-- The fields of a record. -/
def toJson : Record → Json
  | .command c => c.toJson
  | .choice c => c.toJson
  | .node n => n.toJson

/-! ## Building nodes -/

/-- The node with the given fields, built part by part: its commands, then its choices, then
itself. The faults of the first part that has any are all that is found. -/
def assembleNode (data : Json) : Checked Node := do
  let commands ← (data.itemsAt "commands").mapM readCommand
  let choices ← (data.itemsAt "choices").mapM readChoice
  let node ← readNode (data.without ["commands", "choices"])
  return { node with commands, choices }

/-! ## Copies -/

/-- The fields of a record under their names. -/
def fields (record : Record) : List (String × Json) :=
  match record.toJson with
  | .object entries => entries
  | _ => []

/-- The fields of a copy with some changes. What is put into a copy is not checked, so its fields
may hold anything; a change of a field that the record does not have is left out. -/
def clone (record : Record) (changes : List (String × Json)) : List (String × Json) :=
  record.fields.map fun (name, value) => (name, (Entries.find? changes name).getD value)

/-- The name that no change can have: the record itself goes under it. -/
def takenName : String := "self"

/-- Says that a change has the name that is taken. -/
def takenMessage : String :=
  s!"Component.clone() got multiple values for argument '{takenName}'"

/-- Whether something that is put into a field leaves it as it was. Of a list no other one is the
same. -/
def unchanged : Json → Json → Bool
  | .text s, .text s' => s == s'
  | .null, .null => true
  | _, _ => false

/-- Whether a copy with some changes equals the record. -/
def equalsClone (record : Record) (changes : List (String × Json)) : Bool :=
  record.fields.all fun (name, value) =>
    (Entries.find? changes name).all (unchanged · value)

/-! ## Setting fields -/

/-- Sets a field. No field of a record can be set; names with an underscore in front are no fields
and are left to the host. -/
def assign (field : String) : Except Faults Unit :=
  if field.toList.head? = some '_' then .ok () else .error [([.name field], .frozen)]

end Record

end Colloquy
