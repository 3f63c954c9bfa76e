import Colloquy.Library.Loading
import Colloquy.Proofs.Files.Directories
import Colloquy.Proofs.Files.Names
import Colloquy.Proofs.Graph.Accepted
import Colloquy.Proofs.Script.Reading

/-!
# What is in a loaded library

Loading enters the graphs of the scripts and then the stored graphs that can be read, each under
the stem of its file, in the order of the names of the files (`load_eq_done`). It comes to its end
exactly if both directories can be asked for and no stored file breaks it off (`exists_load`). All
graphs of a loaded library can be stored, and none of its ids is empty.

One compiler compiles all scripts, and it has compiled others before. What it makes of a script
does not depend on them (`takeScript_eq`); what is left of them in the end is at most the state of
the compiler, if there was no script to compile.
-/

namespace Colloquy.Library

open Files

variable {library : Library} {tree : Tree} {paths : List Path} {path : Path}

/-! ## Entries -/

/-- What the file of a script gives if a new compiler compiles it. -/
def Entry.ofScript (settings : Script.Settings) (tree : Tree) (path : Path) : Entry :=
  match Script.compileFile settings tree path with
  | .ok compiled => .script path compiled
  | .error problem => .failure path (.data (.text problem))

theorem ofScript_congr {tree' : Tree} (settings : Script.Settings)
    (h : tree'.read path = tree.read path) :
    Entry.ofScript settings tree' path = Entry.ofScript settings tree path := by
  unfold Entry.ofScript
  rw [Script.compileFile_eq, Script.compileFile_eq, Tree.readText, Tree.readText, h]

/-- The graph that an entry adds, under its id. -/
def Entry.graph? : Entry → Option (String × Graph)
  | .script path compiled => some (path.stem, compiled.graph)
  | .stored path graph => some (path.stem, graph)
  | .failure .. => none

theorem graphs_foldl_take (entries : List Entry) (library : Library) :
    (entries.foldl take library).graphs =
      library.graphs.enter (entries.filterMap Entry.graph?) := by
  induction entries generalizing library with
  | nil => rfl
  | cons entry entries ih =>
    rw [List.foldl_cons, ih]
    cases entry <;> rfl

theorem cleared_foldl_take (entries : List Entry) (library : Library) :
    (entries.foldl take library).cleared = library.cleared := by
  induction entries generalizing library with
  | nil => rfl
  | cons entry entries ih =>
    rw [List.foldl_cons, ih]
    cases entry <;> rfl

/-- The stored graph at a path, under its id. -/
def storedGraph? (tree : Tree) (path : Path) : Option (String × Graph) :=
  match Graph.load tree path with
  | .ok graph => some (path.stem, graph)
  | .error _ => none

theorem storedGraph?_eq_some {entry : String × Graph} (h : storedGraph? tree path = some entry) :
    ∃ graph, Graph.load tree path = .ok graph ∧ entry = (path.stem, graph) := by
  unfold storedGraph? at h
  split at h
  · next graph hgraph =>
    cases h
    exact ⟨graph, hgraph, rfl⟩
  · cases h

theorem storedGraph?_of_load {graph : Graph} (h : Graph.load tree path = .ok graph) :
    storedGraph? tree path = some (path.stem, graph) := by
  rw [storedGraph?, h]

theorem take_ofStored {entry : Entry} (h : Entry.ofStored tree path = .ok entry)
    (library : Library) :
    library.take entry =
      { library with graphs := library.graphs.enter (storedGraph? tree path).toList } := by
  unfold Entry.ofStored at h
  unfold storedGraph?
  cases hgraph : Graph.load tree path with
  | ok graph =>
    rw [hgraph] at h
    cases h
    rfl
  | error problem =>
    rw [hgraph] at h
    dsimp only at h
    split at h
    · cases h
      rfl
    · cases h

/-! ## Compilers -/

/-- The library with another compiler. -/
def withCompiler (library : Library) (compiler : Script.Compiler) : Library :=
  { library with compiler }

@[simp] theorem withCompiler_settings (library : Library) (compiler : Script.Compiler) :
    (library.withCompiler compiler).settings = library.settings := rfl

@[simp] theorem withCompiler_scripts (library : Library) (compiler : Script.Compiler) :
    (library.withCompiler compiler).scripts = library.scripts := rfl

@[simp] theorem withCompiler_cleared (library : Library) (compiler : Script.Compiler) :
    (library.withCompiler compiler).cleared = library.cleared.withCompiler compiler := rfl

@[simp] theorem withCompiler_graphs (library : Library) (compiler : Script.Compiler) :
    (library.withCompiler compiler).graphs = library.graphs := rfl

@[simp] theorem withCompiler_warnings (library : Library) (compiler : Script.Compiler) :
    (library.withCompiler compiler).warnings = library.warnings := rfl

theorem take_withCompiler (library : Library) (compiler : Script.Compiler) (entry : Entry) :
    (library.withCompiler compiler).take entry = (library.take entry).withCompiler compiler := by
  cases entry <;> rfl

theorem foldl_take_withCompiler (entries : List Entry) (library : Library)
    (compiler : Script.Compiler) :
    entries.foldl take (library.withCompiler compiler) =
      (entries.foldl take library).withCompiler compiler := by
  induction entries generalizing library with
  | nil => rfl
  | cons entry entries ih => rw [List.foldl_cons, List.foldl_cons, take_withCompiler, ih]

/-- The compiler after the script in a file: as a new one is after it, if the file can be read. -/
def compilerAfter (settings : Script.Settings) (tree : Tree) (compiler : Script.Compiler)
    (path : Path) : Script.Compiler :=
  match Script.Compiler.new.compileFile settings tree path with
  | .ok used => used
  | .error _ => compiler

theorem compilerAfter_congr {tree' : Tree} (settings : Script.Settings) (compiler : Script.Compiler)
    (h : tree'.read path = tree.read path) :
    compilerAfter settings tree' compiler path = compilerAfter settings tree compiler path := by
  unfold compilerAfter Script.Compiler.compileFile
  rw [Tree.readText, Tree.readText, h]

/-- After some scripts, the compiler is as one of them has left it, or has not been used. -/
theorem exists_compilerAfter (settings : Script.Settings) (tree : Tree) (paths : List Path) :
    ∃ used : Option Script.Compiler, ∀ compiler,
      paths.foldl (compilerAfter settings tree) compiler = used.getD compiler := by
  induction paths with
  | nil => exact ⟨none, fun _ => rfl⟩
  | cons path paths ih =>
    obtain ⟨used, hused⟩ := ih
    cases hfile : Script.Compiler.new.compileFile settings tree path with
    | ok last =>
      refine ⟨some (used.getD last), fun compiler => ?_⟩
      rw [List.foldl_cons, hused, compilerAfter, hfile]
      rfl
    | error problem =>
      refine ⟨used, fun compiler => ?_⟩
      rw [List.foldl_cons, hused, compilerAfter, hfile]

/-- After the same scripts once more, the compiler is as it was. -/
theorem compilerAfter_again (settings : Script.Settings) (tree : Tree) (compiler : Script.Compiler)
    (paths : List Path) :
    paths.foldl (compilerAfter settings tree) (paths.foldl (compilerAfter settings tree) compiler) =
      paths.foldl (compilerAfter settings tree) compiler := by
  obtain ⟨used, hused⟩ := exists_compilerAfter settings tree paths
  rw [hused, hused]
  cases used <;> rfl

namespace Loading

/-- The loading with another compiler. -/
def withCompiler (loading : Loading) (compiler : Script.Compiler) : Loading :=
  { loading with library := loading.library.withCompiler compiler }

theorem take_withCompiler (loading : Loading) (compiler : Script.Compiler) (entry : Entry) :
    (loading.withCompiler compiler).take entry = (loading.take entry).withCompiler compiler := by
  cases entry <;> rfl

theorem foldl_take_withCompiler (entries : List Entry) (loading : Loading)
    (compiler : Script.Compiler) :
    entries.foldl take (loading.withCompiler compiler) =
      (entries.foldl take loading).withCompiler compiler := by
  induction entries generalizing loading with
  | nil => rfl
  | cons entry entries ih => rw [List.foldl_cons, List.foldl_cons, take_withCompiler, ih]

theorem take_settings (loading : Loading) (entry : Entry) :
    (loading.take entry).library.settings = loading.library.settings := by
  cases entry <;> rfl

/-- A script gives what it gives to a new compiler. If its file cannot be read, the compiler is
left as it is. -/
theorem takeScript_eq (tree : Tree) (loading : Loading) (path : Path) :
    loading.takeScript tree path =
      (loading.take (.ofScript loading.library.settings tree path)).withCompiler
        (compilerAfter loading.library.settings tree loading.library.compiler path) := by
  unfold takeScript Entry.ofScript compilerAfter Script.compileFile Script.Compiler.compileFile
  cases tree.readText path with
  | error problem => rfl
  | ok text =>
    dsimp only [Except.map]
    rw [Script.Compiler.compile_again, ← take_withCompiler]
    rfl

/-- The scripts give what they give to new compilers, one for each. -/
theorem foldl_takeScript (tree : Tree) (paths : List Path) (loading : Loading) :
    paths.foldl (takeScript tree) loading =
      ((paths.map (Entry.ofScript loading.library.settings tree)).foldl take loading).withCompiler
        (paths.foldl (compilerAfter loading.library.settings tree) loading.library.compiler) := by
  induction paths generalizing loading with
  | nil => rfl
  | cons path paths ih =>
    rw [List.foldl_cons, ih, takeScript_eq, foldl_take_withCompiler, List.map_cons,
      List.foldl_cons, List.foldl_cons]
    show (((paths.map (Entry.ofScript (loading.take _).library.settings tree)).foldl take
      _).withCompiler _).withCompiler
      (paths.foldl (compilerAfter (loading.take _).library.settings tree) _) = _
    rw [take_settings]
    rfl

end Loading

/-! ## Loading -/

/-- The library with nothing but the scripts in a tree. -/
def withScripts (library : Library) (tree : Tree) : Library :=
  let paths := tree.list library.scripts scriptSuffix
  ((paths.map (Entry.ofScript library.settings tree)).foldl take library.cleared).withCompiler
    (paths.foldl (compilerAfter library.settings tree) library.compiler)

/-- The compiler is left as the last script that can be read leaves it, so it is left the same
once more. -/
theorem withScripts_withCompiler (library : Library) (tree : Tree) :
    (library.withCompiler (library.withScripts tree).compiler).withScripts tree =
      library.withScripts tree := by
  generalize hused : (library.withScripts tree).compiler = used
  have hagain :
      (tree.list library.scripts scriptSuffix).foldl (compilerAfter library.settings tree) used =
        used := by
    rw [← hused]
    exact compilerAfter_again ..
  unfold withScripts at hused ⊢
  dsimp only at hused ⊢
  rw [withCompiler_settings, withCompiler_scripts, withCompiler_cleared, foldl_take_withCompiler]
  show withCompiler _ (List.foldl _ used _) = _
  rw [hagain, ← hused]
  rfl

/-- The library with the stored graphs at some paths. -/
def withStored (library : Library) (tree : Tree) (paths : List Path) : Library :=
  { library with graphs := library.graphs.enter (paths.filterMap (storedGraph? tree)) }

theorem withStored_cons (library : Library) (tree : Tree) (path : Path) (paths : List Path) :
    library.withStored tree (path :: paths) =
      ({ library with graphs := library.graphs.enter (storedGraph? tree path).toList } :
        Library).withStored tree paths := by
  unfold withStored
  rw [← Ledger.enter_append, List.filterMap_cons]
  cases storedGraph? tree path <;> rfl

/-- Both directories can be asked for. -/
structure Findable (library : Library) (tree : Tree) : Prop where
  scripts : ∃ found, tree.exists? library.scripts = .ok found
  stored : ∃ found, tree.exists? library.compiled = .ok found

theorem Findable.withCompiler (h : library.Findable tree) (compiler : Script.Compiler) :
    (library.withCompiler compiler).Findable tree :=
  ⟨h.scripts, h.stored⟩

/-- Where the directory of the library is there, the two in it can be asked for, if they could be
in any tree. -/
theorem Findable.of_leads {tree' : Tree} {root : Place} (h : library.Findable tree)
    (hroot : tree'.Leads library.root root) : library.Findable tree' where
  scripts := by
    obtain ⟨found, hfound⟩ := h.scripts
    exact hroot.exists?_child (by decide) hfound
  stored := by
    obtain ⟨found, hfound⟩ := h.stored
    exact hroot.exists?_child (by decide) hfound

namespace Loading

theorem library_foldl_take (entries : List Entry) (loading : Loading) :
    (entries.foldl take loading).library = entries.foldl Library.take loading.library := by
  induction entries generalizing loading with
  | nil => rfl
  | cons entry entries ih => exact ih _

/-- The scripts are read to the end if their directory can be asked for. -/
theorem exists_readScripts (h : ∃ found, tree.exists? library.scripts = .ok found) :
    ∃ read, readScripts tree { library := library.cleared } = (read, none) := by
  obtain ⟨found, hfound⟩ := h
  unfold readScripts
  change tree.exists? library.cleared.scripts = .ok found at hfound
  dsimp only
  rw [hfound]
  cases found <;> exact ⟨_, rfl⟩

theorem readScripts_eq_done {read : Loading}
    (h : readScripts tree { library := library.cleared } = (read, none)) :
    (∃ found, tree.exists? library.scripts = .ok found) ∧
      read.library = library.withScripts tree := by
  unfold readScripts at h
  dsimp only at h
  split at h
  · cases h
  · next hmissing =>
    cases h
    refine ⟨⟨_, hmissing⟩, ?_⟩
    have hnone : tree.list library.scripts scriptSuffix = [] :=
      Tree.list_of_exists?_eq_false hmissing
    unfold withScripts
    rw [hnone]
    rfl
  · next hfound =>
    cases h
    refine ⟨⟨_, hfound⟩, ?_⟩
    rw [foldl_takeScript]
    exact congrArg (Library.withCompiler · _) (library_foldl_take _ _)

theorem takeStored_eq_done {loading loading' : Loading}
    (h : takeStored tree paths loading = (loading', none)) :
    (∀ path ∈ paths, ∃ entry, Entry.ofStored tree path = .ok entry) ∧
      loading'.library = loading.library.withStored tree paths := by
  induction paths generalizing loading with
  | nil =>
    cases h
    exact ⟨by simp, rfl⟩
  | cons path paths ih =>
    rw [takeStored] at h
    split at h
    · next entry hentry =>
      obtain ⟨hpaths, hlibrary⟩ := ih h
      refine ⟨List.forall_mem_cons.2 ⟨⟨entry, hentry⟩, hpaths⟩, ?_⟩
      rw [hlibrary, take, take_ofStored hentry, withStored_cons]
    · cases h

theorem exists_takeStored (h : ∀ path ∈ paths, ∃ entry, Entry.ofStored tree path = .ok entry)
    (loading : Loading) : ∃ loading', takeStored tree paths loading = (loading', none) := by
  induction paths generalizing loading with
  | nil => exact ⟨loading, rfl⟩
  | cons path paths ih =>
    obtain ⟨⟨entry, hentry⟩, hpaths⟩ := List.forall_mem_cons.1 h
    rw [takeStored, hentry]
    exact ih hpaths _

/-- Reading the stored graphs is done only if their directory can be asked for, and none of them
breaks it off. -/
theorem readStored_eq_done {loading loading' : Loading}
    (h : loading.readStored tree = (loading', none)) :
    (∃ found, tree.exists? loading.library.compiled = .ok found) ∧
      (∀ path ∈ tree.list loading.library.compiled storedSuffix, ∃ entry,
        Entry.ofStored tree path = .ok entry) ∧
      loading'.library =
        loading.library.withStored tree (tree.list loading.library.compiled storedSuffix) := by
  unfold readStored at h
  dsimp only at h
  split at h
  · cases h
  · next hmissing =>
    cases h
    rw [Tree.list_of_exists?_eq_false hmissing]
    exact ⟨⟨_, hmissing⟩, by simp, rfl⟩
  · next hfound => exact ⟨⟨_, hfound⟩, takeStored_eq_done h⟩

theorem exists_readStored {loading : Loading}
    (hfound : ∃ found, tree.exists? loading.library.compiled = .ok found)
    (h : ∀ path ∈ tree.list loading.library.compiled storedSuffix, ∃ entry,
      Entry.ofStored tree path = .ok entry) :
    ∃ loading', loading.readStored tree = (loading', none) := by
  obtain ⟨found, hfound⟩ := hfound
  unfold readStored
  dsimp only
  rw [hfound]
  cases found with
  | false => exact ⟨_, rfl⟩
  | true => exact exists_takeStored h loading

end Loading

/-- Reading the scripts changes nothing but what is loaded, and the compiler. -/
theorem cleared_withScripts (library : Library) (tree : Tree) :
    (library.withScripts tree).cleared =
      library.cleared.withCompiler (library.withScripts tree).compiler := by
  unfold withScripts
  dsimp only
  rw [withCompiler_cleared, cleared_foldl_take]
  rfl

theorem compiled_withScripts (library : Library) (tree : Tree) :
    (library.withScripts tree).compiled = library.compiled := by
  have hcompiled := congrArg compiled (cleared_withScripts library tree)
  exact hcompiled

/-- Loading comes to its end exactly if reading the scripts does, and reading the stored graphs
after them. -/
theorem load_steps_iff {loading : Loading} :
    library.load tree = (loading, none) ↔
      ∃ read last, Loading.readScripts tree { library := library.cleared } = (read, none) ∧
        read.readStored tree = (last, none) ∧ last.close = loading := by
  unfold load
  constructor
  · intro h
    split at h
    · cases h
    · next read hscripts =>
      split at h
      · cases h
      · next last hstored => exact ⟨read, last, hscripts, hstored, (Prod.ext_iff.1 h).1⟩
  · rintro ⟨read, last, hscripts, hstored, rfl⟩
    rw [hscripts]
    dsimp only
    rw [hstored]

/-- A library that has been loaded to its end holds its scripts and its stored graphs. Both
directories could be asked for, and no stored file has broken the loading off. -/
theorem load_eq_done {loading : Loading} (h : library.load tree = (loading, none)) :
    library.Findable tree ∧
      (∀ path ∈ tree.list library.compiled storedSuffix, ∃ entry,
        Entry.ofStored tree path = .ok entry) ∧
      loading.library =
        (library.withScripts tree).withStored tree (tree.list library.compiled storedSuffix) := by
  obtain ⟨read, last, hscripts, hstored, rfl⟩ := load_steps_iff.1 h
  obtain ⟨hfoundScripts, hread⟩ := Loading.readScripts_eq_done hscripts
  have hlast := Loading.readStored_eq_done hstored
  rw [hread, compiled_withScripts] at hlast
  exact ⟨⟨hfoundScripts, hlast.1⟩, hlast.2⟩

/-- Loading comes to its end if both directories can be asked for, and no stored file breaks it
off. -/
theorem exists_load (hfound : library.Findable tree)
    (h : ∀ path ∈ tree.list library.compiled storedSuffix, ∃ entry,
      Entry.ofStored tree path = .ok entry) :
    ∃ loading, library.load tree = (loading, none) := by
  obtain ⟨read, hscripts⟩ := Loading.exists_readScripts hfound.scripts
  have hcompiled : read.library.compiled = library.compiled := by
    rw [(Loading.readScripts_eq_done hscripts).2, compiled_withScripts]
  have hstored := hfound.stored
  rw [← hcompiled] at h hstored
  obtain ⟨last, hread⟩ := Loading.exists_readStored hstored h
  exact ⟨last.close, load_steps_iff.2 ⟨read, last, hscripts, hread, rfl⟩⟩

/-- Loading changes nothing but what is loaded, and the compiler. -/
theorem cleared_of_load {loading : Loading} (h : library.load tree = (loading, none)) :
    loading.library.cleared = (library.withCompiler loading.library.compiler).cleared := by
  rw [(load_eq_done h).2.2]
  exact cleared_withScripts library tree

/-- Loading starts from nothing, so it does not matter what has been loaded before. -/
theorem load_of_load {loading : Loading} (h : library.load tree = (loading, none)) (other : Tree) :
    loading.library.load other = (library.withCompiler loading.library.compiler).load other := by
  unfold load
  rw [cleared_of_load h]

/-! ## Ids and graphs -/

theorem stem_ne_empty {directory : Path} {suffix : String} (hsuffix : suffix ≠ "")
    (hpath : path ∈ tree.list directory suffix) : path.stem ≠ "" := by
  obtain ⟨-, name, -, rfl, hname⟩ := Tree.exists_of_mem_list hpath
  rw [Path.stem_child]
  refine Path.splitName_fst_ne_empty ?_
  rintro rfl
  have hnil : suffix.toList = [] := List.suffix_nil.1 (List.isSuffixOf_iff_suffix.1 hname)
  exact hsuffix (String.ext_iff.2 hnil)

theorem storable_of_compileFile {settings : Script.Settings} {compiled : Script.Compiled}
    (h : Script.compileFile settings tree path = .ok compiled) : compiled.graph.Storable := by
  rw [Script.compileFile_eq] at h
  cases htext : tree.readText path with
  | error problem =>
    rw [htext] at h
    cases h
  | ok text =>
    rw [htext] at h
    cases h
    exact storable_compile settings text

/-- A graph that can be stored, and under an id that is not empty. -/
structure Exportable (id : String) (graph : Graph) : Prop where
  id : id ≠ ""
  storable : graph.Storable

theorem exportable_ofScript {settings : Script.Settings} {directory : Path} {entry : String × Graph}
    (hpath : path ∈ tree.list directory scriptSuffix)
    (hentry : (Entry.ofScript settings tree path).graph? = some entry) :
    Exportable entry.1 entry.2 := by
  unfold Entry.ofScript at hentry
  split at hentry
  · next compiled hcompiled =>
    cases hentry
    exact ⟨stem_ne_empty (by decide) hpath, storable_of_compileFile hcompiled⟩
  · cases hentry

theorem exportable_storedGraph? {directory : Path} {entry : String × Graph}
    (hpath : path ∈ tree.list directory storedSuffix)
    (hentry : storedGraph? tree path = some entry) :
    Exportable entry.1 entry.2 := by
  obtain ⟨graph, hgraph, rfl⟩ := storedGraph?_eq_some hentry
  exact ⟨stem_ne_empty (by decide) hpath, storable_of_load hgraph⟩

/-- All graphs of a loaded library can be stored, and none of its ids is empty. -/
theorem exportable_of_load {loading : Loading} (h : library.load tree = (loading, none))
    {id : String} {graph : Graph} (hget : loading.library.graphs.get? id = some graph) :
    Exportable id graph := by
  have hscripts : ∀ id graph, (library.withScripts tree).graphs.get? id = some graph →
      Exportable id graph := by
    intro id graph hget
    rw [withScripts, withCompiler_graphs, graphs_foldl_take] at hget
    refine Ledger.forall_enter (fun _ _ hnone => by cases hnone) (fun entry hentry => ?_) hget
    obtain ⟨read, hread, hentry⟩ := List.mem_filterMap.1 hentry
    obtain ⟨path, hpath, rfl⟩ := List.mem_map.1 hread
    exact exportable_ofScript hpath hentry
  rw [(load_eq_done h).2.2] at hget
  refine Ledger.forall_enter hscripts (fun entry hentry => ?_) hget
  obtain ⟨path, hpath, hentry⟩ := List.mem_filterMap.1 hentry
  exact exportable_storedGraph? hpath hentry

end Colloquy.Library
