import Colloquy.Proofs.Library.Entries
import Colloquy.Proofs.Library.Precompiled

/-!
# What is loaded

Loading to the end gives every id the last stored graph under it that can be read, or else the
graph of the last script under it, and the warnings of the last script under it that has any. One
compiler makes all scripts, and it may have made others before; each script gives what a new
compiler makes of its text alone. The news is one report for each script and for each stored file
that cannot be read, in the order of the files, and the number of graphs in the end
(`loaded_exactly`).
-/

namespace Colloquy.Library

open Files

variable {library : Library} {tree : Tree} {loading : Loading}

/-! ## The last file under an id -/

/-- What is read from the last of some paths that has an id as its stem, and from which anything
is read. -/
def lastWith {α : Type} (id : String) (read : Path → Option α) (paths : List Path) : Option α :=
  ((paths.filter (·.stem = id)).filterMap read).getLast?

/-- The last value entered under an id is that of the last file. -/
theorem last?_filterMap {α : Type} (id : String) (read : Path → Option α) (paths : List Path) :
    Entries.last? (paths.filterMap fun path => (read path).map (path.stem, ·)) id =
      lastWith id read paths := by
  unfold Entries.last? lastWith
  congr 1
  induction paths with
  | nil => rfl
  | cons path paths ih =>
    cases hread : read path with
    | none => by_cases hid : path.stem = id <;> simp [hread, hid, ih]
    | some value => by_cases hid : path.stem = id <;> simp [hread, hid, ih]

/-! ## What the files give -/

/-- The script in a file, compiled by a new compiler. -/
def compiled? (settings : Script.Settings) (tree : Tree) (path : Path) : Option Script.Compiled :=
  (tree.readText path).toOption.map (Script.compile settings)

/-- The warnings about the script in a file, if there are any. -/
def warnings? (settings : Script.Settings) (tree : Tree) (path : Path) :
    Option (List Script.Warning) :=
  ((compiled? settings tree path).map (·.warnings)).filter (· ≠ [])

/-- The graph in a file. -/
def graph? (tree : Tree) (path : Path) : Option Graph :=
  (Graph.load tree path).toOption

/-- The report about the file of a script. -/
def scriptNews (settings : Script.Settings) (tree : Tree) (path : Path) : News :=
  match tree.readText path with
  | .ok text =>
    let compiled := Script.compile settings text
    .compiled path.stem compiled.graph.size compiled.warnings.length
  | .error problem => .failed path.text problem.message

/-- The report about the file of a stored graph, of which there is none if it can be read. -/
def graphNews? (tree : Tree) (path : Path) : Option News :=
  match Graph.load tree path with
  | .ok _ => none
  | .error problem => some (.failed path.text problem.message)

section Files

variable (settings : Script.Settings) (tree : Tree) (path : Path)

theorem ofScript_of_readText {text : String} (h : tree.readText path = .ok text) :
    Entry.ofScript settings tree path = .script path (Script.compile settings text) := by
  unfold Entry.ofScript
  rw [Script.compileFile_eq, h]
  rfl

theorem ofScript_of_error {problem : TextProblem} (h : tree.readText path = .error problem) :
    Entry.ofScript settings tree path = .failure path (.data (.text problem)) := by
  unfold Entry.ofScript
  rw [Script.compileFile_eq, h]
  rfl

theorem graph?_ofScript : (Entry.ofScript settings tree path).graph? =
    ((compiled? settings tree path).map (·.graph)).map (path.stem, ·) := by
  unfold compiled?
  cases htext : tree.readText path with
  | ok text =>
    rw [ofScript_of_readText settings tree path htext]
    rfl
  | error problem =>
    rw [ofScript_of_error settings tree path htext]
    rfl

theorem warnings?_ofScript : (Entry.ofScript settings tree path).warnings? =
    (warnings? settings tree path).map (path.stem, ·) := by
  unfold warnings? compiled?
  cases htext : tree.readText path with
  | ok text =>
    rw [ofScript_of_readText settings tree path htext, Entry.warnings?]
    cases hwarnings : (Script.compile settings text).warnings with
    | nil => simp [Except.toOption, hwarnings]
    | cons warning warnings => simp [Except.toOption, hwarnings, Option.filter]
  | error problem =>
    rw [ofScript_of_error settings tree path htext]
    rfl

theorem entryNews_ofScript :
    Loading.entryNews (Entry.ofScript settings tree path) = [scriptNews settings tree path] := by
  unfold scriptNews
  cases htext : tree.readText path with
  | ok text =>
    rw [ofScript_of_readText settings tree path htext]
    rfl
  | error problem =>
    rw [ofScript_of_error settings tree path htext]
    rfl

theorem graph?_ofGraph :
    (Entry.ofGraph tree path).graph? = (graph? tree path).map (path.stem, ·) := by
  unfold Entry.ofGraph graph?
  cases Graph.load tree path <;> rfl

theorem warnings?_ofGraph : (Entry.ofGraph tree path).warnings? = none := by
  unfold Entry.ofGraph
  cases Graph.load tree path <;> rfl

theorem entryNews_ofGraph :
    Loading.entryNews (Entry.ofGraph tree path) = (graphNews? tree path).toList := by
  unfold Entry.ofGraph graphNews?
  cases Graph.load tree path <;> rfl

end Files

/-! ## Graphs, warnings and news -/

/-- The graph under an id is the last stored one, or else that of the last script. -/
theorem graphs_of_load (h : library.load tree = (loading, none)) (id : String) :
    loading.library.graphs.get? id =
      (lastWith id (graph? tree) (tree.list library.compiled storedSuffix)).or
        (lastWith id (fun path => (compiled? library.settings tree path).map (·.graph))
          (tree.list library.scripts scriptSuffix)) := by
  rw [library_of_load h, withCompiler_graphs, graphs_foldl_take, entries, List.filterMap_append,
    Ledger.enter_append, List.filterMap_map, List.filterMap_map]
  have hscripts : Entry.graph? ∘ Entry.ofScript library.settings tree =
      fun path => ((compiled? library.settings tree path).map (·.graph)).map (path.stem, ·) :=
    funext fun path => graph?_ofScript library.settings tree path
  have hstored :
      Entry.graph? ∘ Entry.ofGraph tree = fun path => (graph? tree path).map (path.stem, ·) :=
    funext fun path => graph?_ofGraph tree path
  have hnone : library.cleared.graphs.get? id = none := rfl
  rw [hscripts, hstored, Ledger.get?_enter, Ledger.get?_enter, last?_filterMap, last?_filterMap,
    hnone, Option.or_none]

/-- The warnings under an id are those of the last script that has any. -/
theorem warnings_of_load (h : library.load tree = (loading, none)) (id : String) :
    loading.library.warnings.get? id =
      lastWith id (warnings? library.settings tree) (tree.list library.scripts scriptSuffix) := by
  rw [library_of_load h, withCompiler_warnings, warnings_foldl_take, entries,
    List.filterMap_append, Ledger.enter_append, List.filterMap_map, List.filterMap_map]
  have hscripts : Entry.warnings? ∘ Entry.ofScript library.settings tree =
      fun path => (warnings? library.settings tree path).map (path.stem, ·) :=
    funext fun path => warnings?_ofScript library.settings tree path
  have hstored : Entry.warnings? ∘ Entry.ofGraph tree = fun _ => none :=
    funext fun path => warnings?_ofGraph tree path
  have hnone : library.cleared.warnings.get? id = none := rfl
  rw [hscripts, hstored, List.filterMap_none, Ledger.enter, Ledger.get?_enter, last?_filterMap,
    hnone, Option.or_none]

/-- The news is about each file in turn. -/
theorem news_by_file (h : library.load tree = (loading, none)) :
    loading.news =
      (tree.list library.scripts scriptSuffix).map (scriptNews library.settings tree) ++
        (tree.list library.compiled storedSuffix).filterMap (graphNews? tree) ++
          [.loaded loading.library.graphs.size] := by
  have hscripts : ∀ path ∈ tree.list library.scripts scriptSuffix,
      Loading.entryNews (Entry.ofScript library.settings tree path) =
        [scriptNews library.settings tree path] :=
    fun path _ => entryNews_ofScript library.settings tree path
  have hstored : ∀ path ∈ tree.list library.compiled storedSuffix,
      Loading.entryNews (Entry.ofGraph tree path) = (graphNews? tree path).toList :=
    fun path _ => entryNews_ofGraph tree path
  rw [news_of_load h, entries, List.flatMap_append, List.flatMap_map, List.flatMap_map,
    List.flatMap_congr hscripts, List.flatMap_congr hstored, ← List.map_eq_flatMap,
    ← List.filterMap_eq_flatMap_toList]

/-! ## All that is loaded -/

/-- A loading holds what the files of a directory give, and has told of each of them. -/
structure LoadedFrom (tree : Tree) (library : Library) (loading : Loading) : Prop where
  graphs : ∀ id, loading.library.graphs.get? id =
    (lastWith id (graph? tree) (tree.list library.compiled storedSuffix)).or
      (lastWith id (fun path => (compiled? library.settings tree path).map (·.graph))
        (tree.list library.scripts scriptSuffix))
  warnings : ∀ id, loading.library.warnings.get? id =
    lastWith id (warnings? library.settings tree) (tree.list library.scripts scriptSuffix)
  news : loading.news =
    (tree.list library.scripts scriptSuffix).map (scriptNews library.settings tree) ++
      (tree.list library.compiled storedSuffix).filterMap (graphNews? tree) ++
        [.loaded loading.library.graphs.size]
  /-- The files stand in the order of their names. -/
  order : ∀ directory suffix,
    (tree.list directory suffix).Pairwise fun path later => path.name < later.name

/-- What is in a library that has been loaded to the end, and what has been told about it, depends
on the files and the settings alone, whatever the library held before and whatever its compiler
has compiled. -/
theorem loaded_exactly (h : library.load tree = (loading, none)) :
    LoadedFrom tree library loading where
  graphs := graphs_of_load h
  warnings := warnings_of_load h
  news := news_by_file h
  order := Tree.pairwise_list tree

/-- Two scripts of one id, of which only the first has a warning; one that is not in UTF-8; and
one whose graph is also stored, beside a stored graph that is broken. The library held another
graph before, and its compiler has made another script with warnings. -/
theorem loaded_exactly_same_id :
    let data : Place := Place.top.child "data"
    let scripts : Place := data.child "scripts"
    let compiled : Place := data.child "compiled"
    let empty : Tree :=
      (((Tree.bare .top).put data .directory).put scripts .directory).put compiled .directory
    let tree : Tree := (((((empty.put
      (scripts.child ".dialogue") (.file (Utf8.encode "Ann:\nHi.\n[x]\n"))).put
      (scripts.child ".dialogue.dialogue") (.file (Utf8.encode "Ann:\nHi.\nBob:\nBye.\n"))).put
      (scripts.child "a.dialogue") (.file (Utf8.encode "Ann:\nHi.\n"))).put
      (scripts.child "b.dialogue") (.file [0xff])).put
      (compiled.child "a.json") (.file (Utf8.encode "\x7b\"nodes\": []\x7d"))).put
      (compiled.child "b.json") (.file [])
    let used : Script.Compiler :=
      Script.Compiler.new.compile {} "[start]\nCy:\nHo.\n- Left\nDot:\n[x]\nUp"
    let library : Library :=
      { root := { names := ["data"] }, compiler := used,
        graphs := Ledger.empty.insert "old" ⟨[], List.nodup_nil⟩ }
    let loading := (library.load tree).1
    (loading.library.graphs.get? ".dialogue").map Graph.size = some 2 ∧
      (loading.library.graphs.get? "a").map Graph.size = some 0 ∧
      (loading.library.warnings.get? ".dialogue").map List.length = some 1 ∧
      loading.news.map News.kind = [.compiled, .compiled, .compiled, .failed, .failed, .loaded] ∧
      LoadedFrom tree library loading := by
  intro data scripts compiled empty tree used library loading
  have hscripts : tree.list library.scripts scriptSuffix =
      [".dialogue", ".dialogue.dialogue", "a.dialogue", "b.dialogue"].map library.scripts.child :=
    Tree.list_of_sorted scripts (by decide +kernel) (by decide +kernel) (by decide +kernel)
      (by decide +kernel)
  have hstored :
      tree.list library.compiled storedSuffix = ["a.json", "b.json"].map library.compiled.child :=
    Tree.list_of_sorted compiled (by decide +kernel) (by decide +kernel) (by decide +kernel)
      (by decide +kernel)
  have hload : library.load tree = (loading, none) := by
    obtain ⟨done, hdone⟩ : ∃ done, library.load tree = (done, none) := by
      refine exists_load ⟨⟨true, by decide +kernel⟩, ⟨true, by decide +kernel⟩⟩ ?_
      rw [hstored, List.forall_mem_map, List.forall_mem_cons, List.forall_mem_singleton]
      exact ⟨exists_ok_of_isSome (by decide +kernel), exists_ok_of_isSome (by decide +kernel)⟩
    exact load_of_done (congrArg Prod.snd hdone)
  have hgraphs := graphs_of_load hload
  have hwarnings := warnings_of_load hload ".dialogue"
  have hnews := news_by_file hload
  rw [hscripts, hstored] at hnews
  rw [hscripts] at hwarnings
  simp only [hscripts, hstored] at hgraphs
  rw [hgraphs, hgraphs, hwarnings, hnews]
  exact ⟨by decide +kernel, by decide +kernel, by decide +kernel, by decide +kernel,
    loaded_exactly hload⟩

end Colloquy.Library
