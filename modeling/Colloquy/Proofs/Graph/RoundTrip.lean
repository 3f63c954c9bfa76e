import Colloquy.Graph.Files
import Colloquy.Proofs.Files.RoundTrip
import Colloquy.Proofs.Script.WellFormed

/-!
# Saved graphs are loaded again

A graph in which no tag and no name of a command is empty can be stored: what is saved passes the
schema, and the graph that is loaded is the one that was saved, whatever stands in its texts. The
compiler makes no other graphs.
-/

namespace Colloquy

open Files Script

/-! ## Checks that find nothing -/

namespace Json.Schema

theorem check_eq_ok {schema : Schema} {data : Json} (h : schema.violations data = []) :
    schema.check data = .ok () := by
  rw [check, h]
  rfl

@[simp] theorem violations_text (s : String) : (Schema.text false).violations (.text s) = [] := by
  simp [violations]

theorem violations_nonEmptyText {s : String} (hs : s ≠ "") :
    (Schema.text true).violations (.text s) = [] := by
  have hempty : s.isEmpty = false := by simpa using hs
  simp [violations, hempty]

theorem violations_textOrNull (s : Option String) :
    Schema.textOrNull.violations ((s.map Json.text).getD .null) = [] := by
  cases s with
  | none => simp [violations]
  | some s => simp [violations]

/-- An array of admitted items is admitted. -/
theorem violations_array {α : Type} {item : Schema} {write : α → Json} {values : List α}
    (hvalues : ∀ value ∈ values, item.violations (write value) = []) :
    (Schema.array item).violations (.array (values.map write)) = [] := by
  rw [violations, List.flatMap_eq_nil_iff]
  rintro ⟨data, place⟩ hentry
  obtain ⟨value, hvalue, rfl⟩ := List.mem_map.mp (List.fst_mem_of_mem_zipIdx hentry)
  show (item.violations (write value)).map _ = []
  rw [hvalues value hvalue]
  rfl

/-- An object with the right names and admitted values is admitted. -/
theorem violations_object {required : List String} {closed : Bool} {known : List (String × Schema)}
    {entries : List (String × Json)}
    (hnames : nameFaults required closed (known.map (·.1)) entries = [])
    (hvalues : knownViolations known entries = []) :
    (Schema.object required closed known).violations (.object entries) = [] := by
  rw [violations, hnames, hvalues]
  rfl

end Json.Schema

/-! ## Graphs that can be stored -/

/-- A node that the files can hold. -/
structure Node.Storable (node : Node) : Prop where
  tag : node.tag ≠ ""
  commands : ∀ command ∈ node.commands, command.name ≠ ""

/-- A graph that the files can hold. -/
def Graph.Storable (graph : Graph) : Prop :=
  ∀ node ∈ graph.nodes, node.Storable

/-- A compiled graph can be stored. -/
theorem storable_compile (settings : Settings) (text : String) :
    (compile settings text).graph.Storable := by
  intro node hnode
  have hnode := wellFormed_of_mem_nodes node hnode
  exact ⟨hnode.tag_ne_empty, fun command hcommand =>
    (hnode.commands command hcommand).name_ne_empty⟩

/-! ## The stored form passes the schema -/

open Json.Schema

theorem violations_command {command : Command} (hname : command.name ≠ "") :
    commandSchema.violations command.toJson = [] := by
  apply violations_object
  · simp [nameFaults, Entries.keys]
  · simp [knownViolations, Entries.find?, violations_nonEmptyText hname, violations_textOrNull]

theorem violations_choice (choice : Choice) : choiceSchema.violations choice.toJson = [] := by
  apply violations_object
  · simp [nameFaults, Entries.keys]
  · simp [knownViolations, Entries.find?]

theorem violations_node {node : Node} (hnode : node.Storable) :
    nodeSchema.violations node.toJson = [] := by
  have hcommands : (Json.Schema.array commandSchema).violations
      (.array (node.commands.map Command.toJson)) = [] :=
    violations_array fun command hcommand => violations_command (hnode.commands command hcommand)
  have hchoices : (Json.Schema.array choiceSchema).violations
      (.array (node.choices.map Choice.toJson)) = [] :=
    violations_array fun choice _ => violations_choice choice
  apply violations_object
  · simp [nameFaults, Entries.keys]
  · simp [knownViolations, Entries.find?, violations_nonEmptyText hnode.tag, hcommands, hchoices]

theorem violations_graph {graph : Graph} (hgraph : graph.Storable) :
    graphSchema.violations graph.toJson = [] := by
  have hnodes : (Json.Schema.array nodeSchema).violations
      (.array (graph.nodes.map Node.toJson)) = [] :=
    violations_array fun node hnode => violations_node (hgraph node hnode)
  have hversion : Json.Schema.integer.violations (.int formatVersion) = [] := by
    simp [violations]
  apply violations_object
  · simp [nameFaults, Entries.keys]
  · simp [knownViolations, Entries.find?, hversion, hnodes]

/-! ## The stored form is read back -/

@[simp] theorem Command.ofJson_toJson (command : Command) :
    Command.ofJson command.toJson = command := by
  cases command with
  | mk name parameter =>
    cases parameter with
    | none => simp [Command.ofJson, Command.toJson, Json.textAt, Json.get?, Entries.find?]
    | some parameter => simp [Command.ofJson, Command.toJson, Json.textAt, Json.get?, Entries.find?]

@[simp] theorem Choice.ofJson_toJson (choice : Choice) : Choice.ofJson choice.toJson = choice := by
  simp [Choice.ofJson, Choice.toJson, Json.textAt, Json.get?, Entries.find?]

theorem map_ofJson_toJson {α : Type} {read : Json → α} {write : α → Json}
    (hread : ∀ value, read (write value) = value) (values : List α) :
    (values.map write).map read = values := by
  rw [List.map_map]
  exact (List.map_congr_left fun value _ => hread value).trans (List.map_id values)

@[simp] theorem Node.ofJson_toJson (node : Node) : Node.ofJson node.toJson = node := by
  have hcommands := map_ofJson_toJson Command.ofJson_toJson node.commands
  have hchoices := map_ofJson_toJson Choice.ofJson_toJson node.choices
  rw [List.map_map] at hcommands hchoices
  simp [Node.ofJson, Node.toJson, Json.textAt, Json.itemsAt, Json.get?, Entries.find?, hcommands,
    hchoices]

/-- A graph is read back from its stored form. -/
theorem Graph.ofJson_toJson {graph : Graph} (hgraph : graph.Storable) :
    Graph.ofJson graph.toJson = .ok graph := by
  have hitems : graph.toJson.itemsAt "nodes" = graph.nodes.map Node.toJson := by
    simp [Graph.toJson, Json.itemsAt, Json.get?, Entries.find?]
  rw [Graph.ofJson, check_eq_ok (violations_graph hgraph), hitems,
    map_ofJson_toJson Node.ofJson_toJson]
  simp only [Graph.ofNodes_nodes]

/-! ## The stored form fits into a text -/

theorem fitsItems_map {α : Type} {levels : Nat} {write : α → Json} {values : List α}
    (hvalues : ∀ value ∈ values, Json.Fits levels (write value)) :
    Json.FitsItems levels (values.map write) := by
  induction values with
  | nil => simp [Json.FitsItems]
  | cons value values ih =>
    exact ⟨hvalues value (List.mem_cons_self ..),
      ih fun v hv => hvalues v (List.mem_cons_of_mem _ hv)⟩

theorem fits_command (levels : Nat) (command : Command) :
    Json.Fits (levels + 1) command.toJson := by
  cases hparameter : command.parameter with
  | none => simp [Command.toJson, Json.Fits, Json.FitsEntries, Entries.keys, hparameter]
  | some parameter => simp [Command.toJson, Json.Fits, Json.FitsEntries, Entries.keys, hparameter]

theorem fits_choice (levels : Nat) (choice : Choice) : Json.Fits (levels + 1) choice.toJson := by
  simp [Choice.toJson, Json.Fits, Json.FitsEntries, Entries.keys]

theorem fits_node (levels : Nat) (node : Node) : Json.Fits (levels + 3) node.toJson := by
  have hcommands : Json.FitsItems (levels + 1) (node.commands.map Command.toJson) :=
    fitsItems_map fun command _ => fits_command levels command
  have hchoices : Json.FitsItems (levels + 1) (node.choices.map Choice.toJson) :=
    fitsItems_map fun choice _ => fits_choice levels choice
  simp [Node.toJson, Json.Fits, Json.FitsEntries, Entries.keys, hcommands, hchoices]

/-- A stored graph has five levels. -/
theorem fits_graph (levels : Nat) (graph : Graph) : Json.Fits (levels + 5) graph.toJson := by
  have hnodes : Json.FitsItems (levels + 3) (graph.nodes.map Node.toJson) :=
    fitsItems_map fun node _ => fits_node levels node
  have hversion : (Decimal.natText 1).length ≤ Decimal.maxDigits := by decide
  simp [Graph.toJson, Json.Fits, Json.FitsEntries, Entries.keys, hnodes, formatVersion, hversion]

theorem fits_maxDepth (graph : Graph) : Json.Fits Json.maxDepth graph.toJson :=
  fits_graph 985 graph

/-! ## Files -/

/-- A graph that has been saved is loaded as it was. -/
theorem load_of_save {graph : Graph} {tree tree' : Tree} {path : Path} (hgraph : graph.Storable)
    (hsave : graph.save tree path = .ok tree') : Graph.load tree' path = .ok graph := by
  unfold Graph.load
  rw [Tree.readJson_of_writeJson (fits_maxDepth graph) hsave]
  simp only [Graph.ofJson_toJson hgraph]

theorem exists_save {tree : Tree} {path : Path} (hpath : tree.Writable path) (graph : Graph) :
    ∃ tree', graph.save tree path = .ok tree' :=
  Tree.exists_write hpath _

/-- A conversion that succeeds has saved the graph that the script compiles to. -/
theorem save_of_convertFile {settings : Settings} {tree tree' : Tree} {input path : Path}
    {output : Option Path}
    (hdone : (convertFile settings tree input output).outcome = .ok (path, tree')) :
    ∃ text, tree.readText input = .ok text ∧
      (compile settings text).graph.save tree path = .ok tree' := by
  unfold convertFile at hdone
  split at hdone
  · cases hdone
  next target htarget =>
  split at hdone
  · cases hdone
  next compiled hcompiled =>
  split at hdone
  · cases hdone
  next written hsave =>
  cases hdone
  rw [compileFile_eq] at hcompiled
  cases htext : tree.readText input with
  | error problem =>
    rw [htext] at hcompiled
    cases hcompiled
  | ok text =>
    rw [htext] at hcompiled
    cases hcompiled
    exact ⟨text, rfl, hsave⟩

/-- A conversion succeeds if the script can be read and the graph can be written. -/
theorem exists_convertFile {settings : Settings} {tree : Tree} {input path : Path}
    {output : Option Path} {text : String}
    (htarget : (output <|> input.withSuffix? ".json") = some path)
    (htext : tree.readText input = .ok text) (hpath : tree.Writable path) :
    ∃ tree', (convertFile settings tree input output).outcome = .ok (path, tree') := by
  obtain ⟨tree', hsave⟩ := exists_save hpath (compile settings text).graph
  refine ⟨tree', ?_⟩
  have hcompiled : compileFile settings tree input = .ok (compile settings text) := by
    rw [compileFile_eq, htext]
    rfl
  unfold convertFile
  rw [htarget]
  simp only [hcompiled, hsave]

/-- Saving and loading a graph is the identity. A graph in which no tag and no name of a command
is empty is loaded as it was from the file that it was saved in, and can be saved wherever a file
can be written. Compiled graphs are of this kind, so a script that was compiled into a file is
loaded as the graph that it compiles to. -/
theorem load_save :
    (∀ (graph : Graph) (tree : Tree) (path : Path), graph.Storable →
      (tree.Writable path → ∃ tree', graph.save tree path = .ok tree') ∧
      ∀ tree', graph.save tree path = .ok tree' → Graph.load tree' path = .ok graph) ∧
    (∀ (settings : Settings) (text : String), (compile settings text).graph.Storable) ∧
    ∀ (settings : Settings) (tree : Tree) (input : Path) (output : Option Path),
      (∀ path text, (output <|> input.withSuffix? ".json") = some path →
        tree.readText input = .ok text → tree.Writable path →
          ∃ tree', (convertFile settings tree input output).outcome = .ok (path, tree')) ∧
      ∀ path tree', (convertFile settings tree input output).outcome = .ok (path, tree') →
        ∃ text, tree.readText input = .ok text ∧
          Graph.load tree' path = .ok (compile settings text).graph := by
  refine ⟨fun graph tree path hgraph => ⟨fun hpath => exists_save hpath graph,
    fun tree' hsave => load_of_save hgraph hsave⟩, storable_compile,
    fun settings tree input output => ⟨?_, ?_⟩⟩
  · intro path text htarget htext hpath
    exact exists_convertFile htarget htext hpath
  · intro path tree' hdone
    obtain ⟨text, htext, hsave⟩ := save_of_convertFile hdone
    exact ⟨text, htext, load_of_save (storable_compile settings text) hsave⟩

/-- A graph whose texts hold a quote, a backslash, control characters and a line separator. -/
theorem load_save_of_controls :
    let node : Node :=
      { tag := "a\x01b", text := "\"\\\r\n\t\u2028\x7f", commands := [⟨"\x0c", some ""⟩] }
    let graph : Graph := ⟨[node], by simp⟩
    let tree : Tree := .bare .top
    let path : Path := { names := ["graph.json"] }
    ∃ tree', graph.save tree path = .ok tree' ∧ Graph.load tree' path = .ok graph := by
  intro node graph tree path
  have hgraph : graph.Storable := by
    intro node hnode
    rw [List.mem_singleton.mp hnode]
    exact ⟨by decide, by decide⟩
  have hpath : tree.Writable path := ⟨Place.top.child "graph.json", by decide +kernel, by decide⟩
  obtain ⟨hsaves, hloads⟩ := load_save.1 graph tree path hgraph
  obtain ⟨tree', hsave⟩ := hsaves hpath
  exact ⟨tree', hsave, hloads tree' hsave⟩

end Colloquy
