import Colloquy.Proofs.Graph.Accepted
import Colloquy.Record

/-!
# The format of stored graphs

`Json.HoldsNodes` says of data, without a schema, that it holds nodes: an object with a list of
them, each an object with exactly the fields of a node, and so on down to the texts. The schemas
admit exactly the data that holds something, and then what is read is what the data holds
(`Json.Schema.Reads`). So a graph is read exactly from data that holds nodes with distinct tags,
and has these nodes; what else is refused is refused with a defect of the format
(`format_exactly`).

Reading is a matter of taking fields out of data whose shape the check has made sure of.
`Graph.take` does so without relying on it: it says what goes wrong where a field is missing, a
value cannot be looked into or a record refuses what stands in a field. After the check nothing of
this happens.
-/

namespace Colloquy

open Json.Schema

/-! ## What data holds -/

/-- Nothing stands under other names. -/
def Json.HasOnly (data : Json) (names : List String) : Prop :=
  ∀ name value, data.get? name = some value → name ∈ names

/-- An integer, or a float that stands for one. -/
def Json.IsInteger (data : Json) : Prop :=
  (∃ i, data = .int i) ∨ ∃ x, data = .float x ∧ (Binary.toInt? x).isSome = true

/-- Data holds a command. If this has no parameter, null may stand in its place, or nothing at
all. -/
structure Command.HeldBy (data : Json) (command : Command) : Prop where
  closed : data.HasOnly ["name", "parameter"]
  name : data.get? "name" = some (.text command.name)
  nonempty : command.name ≠ ""
  parameter : match command.parameter with
    | some parameter => data.get? "parameter" = some (.text parameter)
    | none => data.get? "parameter" = none ∨ data.get? "parameter" = some .null

/-- Data holds a choice. -/
structure Choice.HeldBy (data : Json) (choice : Choice) : Prop where
  closed : data.HasOnly ["text", "target_tag"]
  text : data.get? "text" = some (.text choice.text)
  target : data.get? "target_tag" = some (.text choice.target)

/-- Data holds a node. -/
structure Node.HeldBy (data : Json) (node : Node) : Prop where
  closed : data.HasOnly ["tag", "character_id", "text", "commands", "choices"]
  tag : data.get? "tag" = some (.text node.tag)
  nonempty : node.tag ≠ ""
  speaker : data.get? "character_id" = some (.text node.speaker)
  text : data.get? "text" = some (.text node.text)
  commands : ∃ items, data.get? "commands" = some (.array items) ∧
    List.Forall₂ Command.HeldBy items node.commands
  choices : ∃ items, data.get? "choices" = some (.array items) ∧
    List.Forall₂ Choice.HeldBy items node.choices

/-- Data holds nodes in order. If it has a version, this is an integer. Whatever else it has does
not matter. -/
structure Json.HoldsNodes (data : Json) (nodes : List Node) : Prop where
  version : ∀ version, data.get? "version" = some version → version.IsInteger
  nodes : ∃ items, data.get? "nodes" = some (.array items) ∧ List.Forall₂ Node.HeldBy items nodes

/-! ## Fields -/

section Fields

variable {data : Json} {name : String} {required : List String} {closed : Bool}
  {known : List (String × Json.Schema)}

theorem exists_entries_of_get? {value : Json} (h : data.get? name = some value) :
    ∃ entries, data = .object entries := by
  cases data with
  | object entries => exact ⟨entries, rfl⟩
  | _ => cases h

/-- What stands under a name has a shape, if it is the value that has this shape. -/
theorem admits_of_get? {schema : Json.Schema} {value : Json} (h : data.get? name = some value)
    (hadmits : schema.Admits value) :
    ∀ found, data.get? name = some found → schema.Admits found := by
  intro found hfound
  rw [h] at hfound
  cases hfound
  exact hadmits

theorem admits_text {nonEmpty : Bool} {s : String} (h : nonEmpty = true → s ≠ "") :
    (Json.Schema.text nonEmpty).Admits (.text s) := by
  rw [Admits]
  exact ⟨s, rfl, h⟩

theorem get?_textAt (nonEmpty : Bool) (h : (Json.Schema.object required closed known).Admits data)
    (hname : name ∈ required) (hknown : (name, .text nonEmpty) ∈ known) :
    data.get? name = some (.text (data.textAt name)) := by
  obtain ⟨value, hvalue, hadmits⟩ := exists_get?_of_admits h hname hknown
  rw [Admits] at hadmits
  obtain ⟨s, rfl, -⟩ := hadmits
  rw [Json.textAt, hvalue]

theorem hasOnly_of_admits (h : (Json.Schema.object required true known).Admits data) :
    data.HasOnly (known.map (·.1)) :=
  (admits_object_iff.1 h).2.2.1 rfl

end Fields

/-! ## Records -/

/-- What a schema admits is data that holds something, and this is what is read from it. -/
structure Json.Schema.Reads {α : Type} (schema : Json.Schema) (read : Json → α)
    (Held : Json → α → Prop) : Prop where
  admits : ∀ {data a}, Held data a → schema.Admits data
  read_eq : ∀ {data a}, Held data a → read data = a
  held : ∀ {data}, schema.Admits data → Held data (read data)

namespace Json.Schema.Reads

variable {α : Type} {item : Json.Schema} {read : Json → α} {Held : Json → α → Prop} {data : Json}
  {items : List Json} {values : List α}

theorem map_eq (h : item.Reads read Held) (hheld : List.Forall₂ Held items values) :
    items.map read = values := by
  induction hheld with
  | nil => rfl
  | cons hfirst _ ih => rw [List.map_cons, h.read_eq hfirst, ih]

theorem admits_array (h : item.Reads read Held) (hheld : List.Forall₂ Held items values) :
    (Json.Schema.array item).Admits (.array items) := by
  rw [Admits]
  refine ⟨items, rfl, ?_⟩
  induction hheld with
  | nil => exact List.forall_mem_nil _
  | cons hfirst _ ih => exact List.forall_mem_cons.2 ⟨h.admits hfirst, ih⟩

theorem held_map (h : item.Reads read Held) (hadmits : ∀ data ∈ items, item.Admits data) :
    List.Forall₂ Held items (items.map read) := by
  induction items with
  | nil => exact .nil
  | cons data items ih =>
    obtain ⟨hfirst, hrest⟩ := List.forall_mem_cons.1 hadmits
    exact .cons (h.held hfirst) (ih hrest)

/-- A list of records that the schema asks for. -/
theorem exists_items (h : item.Reads read Held) {name : String} {required : List String}
    {closed : Bool} {known : List (String × Json.Schema)}
    (hadmits : (Json.Schema.object required closed known).Admits data)
    (hname : name ∈ required) (hknown : (name, .array item) ∈ known) :
    ∃ items, data.get? name = some (.array items) ∧
      List.Forall₂ Held items ((data.itemsAt name).map read) := by
  obtain ⟨value, hvalue, harray⟩ := exists_get?_of_admits hadmits hname hknown
  rw [Admits] at harray
  obtain ⟨items, rfl, heach⟩ := harray
  rw [Json.itemsAt, hvalue]
  exact ⟨items, rfl, h.held_map heach⟩

end Json.Schema.Reads

section Records

variable {data : Json}

/-- Of a parameter the schema asks nothing but that it be a text or null. -/
theorem Command.HeldBy.admits_parameter {command : Command} (h : command.HeldBy data) :
    ∀ value, data.get? "parameter" = some value → Json.Schema.textOrNull.Admits value := by
  intro value hvalue
  have hheld := h.parameter
  rw [Admits]
  cases hparameter : command.parameter with
  | some parameter =>
    rw [hparameter, hvalue] at hheld
    exact .inr ⟨parameter, Option.some.inj hheld⟩
  | none =>
    rw [hparameter, hvalue] at hheld
    rcases hheld with hnone | hnull
    · cases hnone
    · exact .inl (Option.some.inj hnull)

theorem reads_command : commandSchema.Reads Command.ofJson Command.HeldBy where
  admits {data command} h := by
    refine admits_object_iff.2 ⟨exists_entries_of_get? h.name, ?_, fun _ => h.closed, ?_⟩
    · simp [h.name]
    · exact List.forall_mem_cons.2 ⟨admits_of_get? h.name (admits_text fun _ => h.nonempty),
        List.forall_mem_singleton.2 h.admits_parameter⟩
  read_eq {data command} h := by
    have hparameter := h.parameter
    obtain ⟨name, parameter⟩ := command
    rw [Command.ofJson, Json.textAt, h.name]
    cases parameter with
    | some parameter => rw [hparameter]
    | none =>
      rcases hparameter with hnone | hnull
      · rw [hnone]
      · rw [hnull]
  held {data} h := by
    refine ⟨hasOnly_of_admits h, get?_textAt true h (by simp) (by simp),
      textAt_ne_empty h (by simp) (by simp), ?_⟩
    obtain ⟨-, -, -, hknown⟩ := admits_object_iff.1 h
    have hshape := hknown ("parameter", .textOrNull) (by simp)
    rw [Command.ofJson]
    cases hparameter : data.get? "parameter" with
    | none => exact .inl rfl
    | some value =>
      have hadmits := hshape value hparameter
      rw [Admits] at hadmits
      rcases hadmits with rfl | ⟨s, rfl⟩
      · exact .inr rfl
      · rfl

theorem reads_choice : choiceSchema.Reads Choice.ofJson Choice.HeldBy where
  admits {data choice} h := by
    refine admits_object_iff.2 ⟨exists_entries_of_get? h.text, ?_, fun _ => h.closed, ?_⟩
    · simp [h.text, h.target]
    · exact List.forall_mem_cons.2 ⟨admits_of_get? h.text (admits_text nofun),
        List.forall_mem_singleton.2 (admits_of_get? h.target (admits_text nofun))⟩
  read_eq {data choice} h := by
    rw [Choice.ofJson, Json.textAt, Json.textAt, h.text, h.target]
  held {data} h :=
    ⟨hasOnly_of_admits h, get?_textAt false h (by simp) (by simp),
      get?_textAt false h (by simp) (by simp)⟩

theorem reads_node : nodeSchema.Reads Node.ofJson Node.HeldBy where
  admits {data node} h := by
    obtain ⟨commands, hcommands, hcommand⟩ := h.commands
    obtain ⟨choices, hchoices, hchoice⟩ := h.choices
    refine admits_object_iff.2 ⟨exists_entries_of_get? h.tag, ?_, fun _ => h.closed, ?_⟩
    · simp [h.tag, h.speaker, h.text, hcommands, hchoices]
    · simp only [List.forall_mem_cons, List.not_mem_nil, false_imp_iff, implies_true, and_true]
      exact ⟨admits_of_get? h.tag (admits_text fun _ => h.nonempty),
        admits_of_get? h.speaker (admits_text nofun), admits_of_get? h.text (admits_text nofun),
        admits_of_get? hcommands (reads_command.admits_array hcommand),
        admits_of_get? hchoices (reads_choice.admits_array hchoice)⟩
  read_eq {data node} h := by
    obtain ⟨commands, hcommands, hcommand⟩ := h.commands
    obtain ⟨choices, hchoices, hchoice⟩ := h.choices
    rw [Node.ofJson, Json.textAt, Json.textAt, Json.textAt, Json.itemsAt, Json.itemsAt,
      h.tag, h.speaker, h.text, hcommands, hchoices, reads_command.map_eq hcommand,
      reads_choice.map_eq hchoice]
  held {data} h :=
    { closed := hasOnly_of_admits h
      tag := get?_textAt true h (by simp) (by simp)
      nonempty := textAt_ne_empty h (by simp) (by simp)
      speaker := get?_textAt false h (by simp) (by simp)
      text := get?_textAt false h (by simp) (by simp)
      commands := reads_command.exists_items h (by simp) (by simp)
      choices := reads_choice.exists_items h (by simp) (by simp) }

theorem reads_graph :
    graphSchema.Reads (fun data => (data.itemsAt "nodes").map Node.ofJson) Json.HoldsNodes where
  admits {data nodes} h := by
    obtain ⟨items, hitems, hnodes⟩ := h.nodes
    refine admits_object_iff.2 ⟨exists_entries_of_get? hitems, ?_, nofun, ?_⟩
    · simp [hitems]
    · exact List.forall_mem_cons.2 ⟨h.version,
        List.forall_mem_singleton.2 (admits_of_get? hitems (reads_node.admits_array hnodes))⟩
  read_eq {data nodes} h := by
    obtain ⟨items, hitems, hnodes⟩ := h.nodes
    rw [Json.itemsAt, hitems]
    exact reads_node.map_eq hnodes
  held {data} h := by
    obtain ⟨-, -, -, hknown⟩ := admits_object_iff.1 h
    exact ⟨hknown ("version", .integer) (by simp), reads_node.exists_items h (by simp) (by simp)⟩

end Records

/-! ## Taking records out of data -/

/-- What may go wrong where the shape of data is not known. -/
inductive Lapse where
  /-- The data cannot be looked into for a name. -/
  | noEntries (data : Json)
  | missing (name : String)
  | notIterable (data : Json)
  /-- A record does not take what stands in its fields. -/
  | misfit (faults : Record.Faults)

/-- What stands under a name. -/
def Json.entry (data : Json) (name : String) : Except Lapse Json :=
  match data with
  | .object entries =>
    match Entries.find? entries name with
    | some value => .ok value
    | none => .error (.missing name)
  | data => .error (.noEntries data)

/-- What data consists of: the items of a list, the characters of a text, the names of an object. -/
def Json.elements : Json → Except Lapse (List Json)
  | .array items => .ok items
  | .text s => .ok (s.toList.map fun c => .text (String.ofList [c]))
  | .object entries => .ok (entries.map fun entry => .text entry.1)
  | data => .error (.notIterable data)

/-- Takes a command out of data. -/
def Command.take (data : Json) : Except Lapse Command := do
  let name ← data.entry "name"
  let parameter := (data.get? "parameter").getD .null
  (Record.readCommand (.object [("name", name), ("parameter", parameter)])).mapError .misfit

/-- Takes a choice out of data. -/
def Choice.take (data : Json) : Except Lapse Choice := do
  let text ← data.entry "text"
  let target ← data.entry "target_tag"
  (Record.readChoice (.object [("text", text), ("target_tag", target)])).mapError .misfit

/-- Takes a node out of data. -/
def Node.take (data : Json) : Except Lapse Node := do
  let tag ← data.entry "tag"
  let speaker := (data.get? "character_id").getD (.text "")
  let text := (data.get? "text").getD (.text "")
  let commands ← (← ((data.get? "commands").getD (.array [])).elements).mapM Command.take
  let choices ← (← ((data.get? "choices").getD (.array [])).elements).mapM Choice.take
  let node ← (Record.readNode
    (.object [("tag", tag), ("character_id", speaker), ("text", text)])).mapError .misfit
  return { node with commands, choices }

/-- Checks data and takes the nodes of a graph out of it. -/
def Graph.take (data : Json) : Except Lapse (Except GraphDefect Graph) :=
  match graphSchema.check data with
  | .error violation => return .error (.violation violation)
  | .ok () => do
    let nodes ← (← (← data.entry "nodes").elements).mapM Node.take
    return (Graph.ofNodes nodes).mapError .duplicate

section Taking

variable {data : Json}

theorem entry_of_get? {name : String} {value : Json} (h : data.get? name = some value) :
    data.entry name = .ok value := by
  cases data with
  | object entries =>
    have hfind : Entries.find? entries name = some value := h
    rw [Json.entry, hfind]
  | _ => cases h

theorem mapM_of_forall₂ {α : Type} {Held : Json → α → Prop} {take : Json → Except Lapse α}
    {items : List Json} {values : List α} (hheld : List.Forall₂ Held items values)
    (h : ∀ data a, Held data a → take data = .ok a) : items.mapM take = .ok values := by
  induction hheld with
  | nil => rfl
  | cons hfirst _ ih =>
    rw [List.mapM_cons, h _ _ hfirst, ih]
    rfl

theorem Command.HeldBy.take_eq {command : Command} (h : command.HeldBy data) :
    Command.take data = .ok command := by
  have hparameter := h.parameter
  obtain ⟨name, parameter⟩ := command
  rw [Command.take, entry_of_get? h.name]
  cases parameter with
  | some parameter =>
    rw [hparameter]
    rfl
  | none =>
    rcases hparameter with hnone | hnull
    · rw [hnone]
      rfl
    · rw [hnull]
      rfl

theorem Choice.HeldBy.take_eq {choice : Choice} (h : choice.HeldBy data) :
    Choice.take data = .ok choice := by
  rw [Choice.take, entry_of_get? h.text, entry_of_get? h.target]
  rfl

theorem Node.HeldBy.take_eq {node : Node} (h : node.HeldBy data) : Node.take data = .ok node := by
  obtain ⟨commands, hcommands, hcommand⟩ := h.commands
  obtain ⟨choices, hchoices, hchoice⟩ := h.choices
  have htakeCommands := mapM_of_forall₂ hcommand fun _ _ hheld => hheld.take_eq
  have htakeChoices := mapM_of_forall₂ hchoice fun _ _ hheld => hheld.take_eq
  rw [Node.take, entry_of_get? h.tag, h.speaker, h.text, hcommands, hchoices]
  show (commands.mapM Command.take >>= fun commands =>
    choices.mapM Choice.take >>= fun choices => _) = _
  rw [htakeCommands, htakeChoices]
  rfl

/-- Nothing goes wrong when records are taken out of data that has passed the check. -/
theorem Graph.take_eq (data : Json) : Graph.take data = .ok (Graph.ofJson data) := by
  rw [Graph.take, Graph.ofJson]
  cases hcheck : graphSchema.check data with
  | error violation => rfl
  | ok _ =>
    have hheld := reads_graph.held (check_eq_ok_iff.1 hcheck)
    obtain ⟨items, hitems, hnodes⟩ := hheld.nodes
    have htake := mapM_of_forall₂ hnodes fun _ _ hheld => hheld.take_eq
    dsimp only
    rw [entry_of_get? hitems]
    show (items.mapM Node.take >>= fun nodes => _) = _
    rw [htake]
    show Except.ok ((Graph.ofNodes ((data.itemsAt "nodes").map Node.ofJson)).mapError _) = _
    cases Graph.ofNodes ((data.itemsAt "nodes").map Node.ofJson) <;> rfl

end Taking

/-! ## Graphs -/

theorem Graph.ofJson_of_held {data : Json} {nodes : List Node} (h : data.HoldsNodes nodes) :
    Graph.ofJson data = (Graph.ofNodes nodes).mapError .duplicate := by
  rw [Graph.ofJson, check_eq_ok_iff.2 (reads_graph.admits h), reads_graph.read_eq h]
  dsimp only
  cases Graph.ofNodes nodes <;> rfl

theorem Graph.ofJson_of_not_held {data : Json} (h : ¬ ∃ nodes, data.HoldsNodes nodes) :
    ∃ violation, Graph.ofJson data = .error (.violation violation) := by
  rw [Graph.ofJson]
  cases hcheck : graphSchema.check data with
  | error violation => exact ⟨violation, rfl⟩
  | ok _ => exact (h ⟨_, reads_graph.held (check_eq_ok_iff.1 hcheck)⟩).elim

/-- What comes of reading data. -/
theorem Graph.ofJson_cases (data : Json) :
    (∃ graph, Graph.ofJson data = .ok graph ∧ data.HoldsNodes graph.nodes) ∨
      (∃ mistake nodes, Graph.ofJson data = .error (.duplicate mistake) ∧ data.HoldsNodes nodes ∧
        ¬ (nodes.map (·.tag)).Nodup) ∨
      ∃ violation, Graph.ofJson data = .error (.violation violation) ∧ ¬ ∃ nodes,
        data.HoldsNodes nodes := by
  by_cases hheld : ∃ nodes, data.HoldsNodes nodes
  · obtain ⟨nodes, hnodes⟩ := hheld
    rw [Graph.ofJson_of_held hnodes]
    cases hgraph : Graph.ofNodes nodes with
    | ok graph =>
      refine .inl ⟨graph, rfl, ?_⟩
      rw [ofNodes_eq_ok hgraph]
      exact hnodes
    | error mistake =>
      refine .inr (.inl ⟨mistake, nodes, rfl, hnodes, fun hnodup => ?_⟩)
      rw [Graph.ofNodes_nodes ⟨nodes, hnodup⟩] at hgraph
      cases hgraph
  · obtain ⟨violation, hviolation⟩ := Graph.ofJson_of_not_held hheld
    exact .inr (.inr ⟨violation, hviolation, hheld⟩)

theorem Json.HoldsNodes.unique {data : Json} {nodes others : List Node} (h : data.HoldsNodes nodes)
    (hothers : data.HoldsNodes others) : others = nodes := by
  rw [← reads_graph.read_eq h, reads_graph.read_eq hothers]

theorem Graph.ofJson_eq_ok_iff {data : Json} {graph : Graph} :
    Graph.ofJson data = .ok graph ↔ data.HoldsNodes graph.nodes := by
  constructor
  · intro h
    rcases Graph.ofJson_cases data with ⟨found, hok, hheld⟩ | ⟨mistake, nodes, herror, -⟩ |
      ⟨violation, herror, -⟩
    · rw [hok] at h
      cases h
      exact hheld
    · rw [herror] at h
      cases h
    · rw [herror] at h
      cases h
  · intro h
    rw [Graph.ofJson_of_held h, Graph.ofNodes_nodes]
    rfl

theorem Graph.ofJson_duplicate_iff {data : Json} :
    (∃ mistake, Graph.ofJson data = .error (.duplicate mistake)) ↔
      ∃ nodes, data.HoldsNodes nodes ∧ ¬ (nodes.map (·.tag)).Nodup := by
  rcases Graph.ofJson_cases data with ⟨graph, hok, hheld⟩
    | ⟨mistake, nodes, herror, hheld, hrepeats⟩ |
    ⟨violation, herror, hnone⟩
  · rw [hok]
    refine iff_of_false (by simp) fun h => ?_
    obtain ⟨nodes, hnodes, hrepeats⟩ := h
    rw [hheld.unique hnodes] at hrepeats
    exact hrepeats graph.nodup
  · exact iff_of_true ⟨mistake, herror⟩ ⟨nodes, hheld, hrepeats⟩
  · rw [herror]
    refine iff_of_false (by simp) fun h => ?_
    obtain ⟨nodes, hnodes, -⟩ := h
    exact hnone ⟨nodes, hnodes⟩

theorem Graph.ofJson_violation_iff {data : Json} :
    (∃ violation, Graph.ofJson data = .error (.violation violation)) ↔
      ¬ ∃ nodes, data.HoldsNodes nodes := by
  rcases Graph.ofJson_cases data with ⟨graph, hok, hheld⟩ | ⟨mistake, nodes, herror, hheld, -⟩ |
    ⟨violation, herror, hnone⟩
  · rw [hok]
    exact iff_of_false (by simp) fun h => h ⟨graph.nodes, hheld⟩
  · rw [herror]
    exact iff_of_false (by simp) fun h => h ⟨nodes, hheld⟩
  · exact iff_of_true ⟨violation, herror⟩ hnone

/-- A graph is read from data exactly if this holds its nodes, so data is read exactly if it holds
nodes with distinct tags. Data that holds nodes two of which have the same tag is refused for
this, and data that holds no nodes is refused for a violation. Nothing else comes of reading: no
field that is taken out of the data is missing, and none has anything in it that a record would
not take. -/
theorem format_exactly (data : Json) :
    (∀ graph, Graph.ofJson data = .ok graph ↔ data.HoldsNodes graph.nodes) ∧
      ((∃ graph, Graph.ofJson data = .ok graph) ↔
        ∃ nodes, data.HoldsNodes nodes ∧ (nodes.map (·.tag)).Nodup) ∧
      ((∃ mistake, Graph.ofJson data = .error (.duplicate mistake)) ↔
        ∃ nodes, data.HoldsNodes nodes ∧ ¬ (nodes.map (·.tag)).Nodup) ∧
      ((∃ violation, Graph.ofJson data = .error (.violation violation)) ↔
        ¬ ∃ nodes, data.HoldsNodes nodes) ∧
      Graph.take data = .ok (Graph.ofJson data) := by
  refine ⟨fun graph => Graph.ofJson_eq_ok_iff, ?_, Graph.ofJson_duplicate_iff,
    Graph.ofJson_violation_iff, Graph.take_eq data⟩
  constructor
  · intro h
    obtain ⟨graph, hgraph⟩ := h
    exact ⟨graph.nodes, Graph.ofJson_eq_ok_iff.1 hgraph, graph.nodup⟩
  · intro h
    obtain ⟨nodes, hnodes, hnodup⟩ := h
    exact ⟨⟨nodes, hnodup⟩, Graph.ofJson_eq_ok_iff.2 hnodes⟩

end Colloquy
