import Colloquy.Proofs.Files.Making
import Colloquy.Proofs.Library.Contents
import Colloquy.Proofs.Library.Rewritten

/-!
# A library is loaded as before after it has been written

A library that has been loaded and then written into its own directory is loaded again as it was:
with the same graphs and the same warnings, in the same order (`load_after_write`). The scripts
are as they were. The stored graphs are those that were loaded, the ones of the scripts included,
which they replace; files that could not be read have been replaced too, if there is a script of
the same name, and are passed over again otherwise.

The directory of the library must be there, or there must be no double dots on the way to it. In
the other case, the way leads elsewhere once the missing directories have been made.
-/

namespace Colloquy.Library

open Files

variable {library : Library} {tree made tree' : Tree} {root : Place} {loading : Loading}

/-! ## Graphs and their files -/

theorem mem_sorted_iff {id : String} {graph : Graph} :
    (id, graph) ∈ library.sorted ↔ library.graphs.get? id = some graph := by
  rw [sorted, List.mem_mergeSort, Ledger.mem_entries_iff]

theorem nodup_sorted (library : Library) : (Entries.keys library.sorted).Nodup :=
  ((List.mergeSort_perm _ _).map _).nodup_iff.2 library.graphs.nodup

/-- No stored graph is in a file with the name of the directory above. -/
theorem ne_dots_of_mem_namesIn {place : Place} {name : String}
    (h : name ∈ tree.namesIn place storedSuffix) : name ≠ ".." :=
  Path.ne_dots_of_suffix (by decide) (Tree.mem_namesIn.1 h).2

/-- Only a file is loaded, and only from where its path leads. -/
theorem storedGraph?_eq_none {path : Path} {place : Place} {name : String}
    (hfollow : tree.follow (tree.origin path) path.names = .ok place) (hname : name ≠ "..")
    (hmissing : place.child name ∉ tree.items.keys) :
    storedGraph? tree (path.child name) = none := by
  rw [Option.eq_none_iff_forall_ne_some]
  intro entry hentry
  obtain ⟨graph, hload, -⟩ := storedGraph?_eq_some hentry
  obtain ⟨bytes, hread⟩ := read_of_load hload
  obtain ⟨target, hlocate, hitem⟩ := Tree.read_eq_ok hread
  obtain ⟨found, hfound, -, -, rfl⟩ := Tree.follow_concat (Tree.locate_eq_ok_iff.1 hlocate).2
  obtain rfl : place = found := Except.ok.inj (hfollow.symm.trans hfound)
  rw [if_neg hname] at hitem
  exact absurd (Tree.mem_keys_of_file hitem) hmissing

/-- What names without a file give does not matter. -/
theorem filterMap_of_subset {α : Type} {names more : List String} {f : String → Option α}
    (hnames : names.SortedLT) (hmore : more.SortedLT) (hsubset : ∀ name ∈ names, name ∈ more)
    (hnone : ∀ name ∈ more, name ∉ names → f name = none) :
    more.filterMap f = names.filterMap f := by
  have hfilter : names = more.filter (· ∈ names) := by
    refine hnames.eq_of_mem_iff (hmore.pairwise.filter _).sortedLT fun name => ?_
    rw [List.mem_filter, decide_eq_true_eq]
    exact ⟨fun h => ⟨hsubset name h, h⟩, fun h => h.2⟩
  rw [hfilter, List.filterMap_filter]
  refine List.filterMap_congr fun name hname => ?_
  by_cases hmem : name ∈ names
  · simp [hmem]
  · simp [hmem, hnone name hname hmem]

/-! ## The scripts -/

/-- The scripts are compiled as before if nothing in their directory has changed. -/
theorem withScripts_eq {fresh : Place → Prop} (hgrown : Tree.Grown fresh tree tree')
    (hroot : tree.Leads library.root root) (hplace : ¬ fresh (root.child "scripts"))
    (hfiles : ∀ name, ¬ fresh ((root.child "scripts").child name)) :
    library.withScripts tree' = library.withScripts tree := by
  have hdots : "scripts" ≠ ".." := by decide
  have hlist : tree'.list library.scripts scriptSuffix = tree.list library.scripts scriptSuffix :=
    hgrown.list_child_eq hroot hdots hplace hfiles
  have hread :
      ∀ path ∈ tree.list library.scripts scriptSuffix, tree'.read path = tree.read path := by
    intro path hpath
    obtain ⟨place, name, hleads, rfl, hname⟩ := Tree.exists_of_mem_list hpath
    obtain rfl := ((hroot.leads_child_iff hdots).1 hleads).2.1
    exact hgrown.read_child hleads (Path.ne_dots_of_suffix (by decide) hname) (hfiles name)
  have hentries :=
    List.map_congr_left fun path hpath => ofScript_congr library.settings (hread path hpath)
  have hcompiler := List.foldl_ext _ _ library.compiler fun compiler path hpath =>
    compilerAfter_congr library.settings compiler (hread path hpath)
  rw [withScripts, withScripts, hlist, hentries, hcompiler]

/-! ## The stored graphs -/

/-- Graphs have been written into the directory of the stored graphs of a library, and nothing
else has changed. -/
structure Exported (library : Library) (tree tree' : Tree) (directory : Place)
    (graphs : List (String × Graph)) : Prop where
  closed : tree.Closed
  locate : tree.locate library.compiled = .ok directory
  leads : tree'.Leads library.compiled directory
  grown : Tree.Grown (fun place => place = directory ∨ HoldsOneOf graphs directory place) tree tree'
  files : ∀ entry ∈ graphs, directory.child (storedName entry.1) ∈ tree'.items.keys ∧
    Graph.load tree' (library.compiled.child (storedName entry.1)) = .ok entry.2

namespace Exported

variable {directory : Place} {graphs : List (String × Graph)} {name : String}

theorem not_fresh (hname : ∀ entry ∈ graphs, name ≠ storedName entry.1) :
    ¬ (directory.child name = directory ∨ HoldsOneOf graphs directory (directory.child name)) := by
  rintro (hsame | hholds)
  · exact Place.child_ne_self _ _ hsame
  · obtain ⟨entry, hentry, heq⟩ := holdsOneOf_child_iff.1 hholds
    exact hname entry hentry heq

/-- A file that none of the graphs was written into was there before. -/
theorem mem_keys (h : Exported library tree tree' directory graphs)
    (hname : ∀ entry ∈ graphs, name ≠ storedName entry.1)
    (hkey : directory.child name ∈ tree'.items.keys) :
    directory.child name ∈ tree.items.keys :=
  (h.grown.mem_keys_iff (not_fresh hname)).1 hkey

/-- A file that none of the graphs was written into is read as before. -/
theorem read_eq (h : Exported library tree tree' directory graphs) (hdots : name ≠ "..")
    (hname : ∀ entry ∈ graphs, name ≠ storedName entry.1)
    (hkey : directory.child name ∈ tree'.items.keys) :
    tree'.read (library.compiled.child name) = tree.read (library.compiled.child name) := by
  have hplace := h.closed _ (h.mem_keys hname hkey)
  rw [Place.parent_child] at hplace
  exact h.grown.read_child ⟨(Tree.locate_eq_ok_iff.1 h.locate).2, hplace⟩ hdots (not_fresh hname)

theorem list_eq (h : Exported library tree tree' directory graphs) :
    tree'.list library.compiled storedSuffix =
      (tree'.namesIn directory storedSuffix).map library.compiled.child :=
  Tree.list_of_leads (Tree.locate_eq_ok_iff.1 h.locate).1 h.leads

/-- No stored file breaks the loading off that did not do so before. -/
theorem exists_entry (h : Exported library tree tree' directory graphs)
    (hbefore : ∀ path ∈ tree.list library.compiled storedSuffix, ∃ entry,
      Entry.ofStored tree path = .ok entry) :
    ∀ path ∈ tree'.list library.compiled storedSuffix, ∃ entry,
      Entry.ofStored tree' path = .ok entry := by
  rw [h.list_eq]
  intro path hpath
  obtain ⟨name, hname, rfl⟩ := List.mem_map.1 hpath
  obtain ⟨hkey, hsuffix⟩ := Tree.mem_namesIn.1 hname
  by_cases hwritten : ∃ entry ∈ graphs, name = storedName entry.1
  · obtain ⟨entry, hentry, rfl⟩ := hwritten
    exact ⟨_, ofStored_of_load (h.files entry hentry).2⟩
  · have hkept : ∀ entry ∈ graphs, name ≠ storedName entry.1 :=
      fun entry hentry heq => hwritten ⟨entry, hentry, heq⟩
    rw [ofStored_congr (h.read_eq (ne_dots_of_mem_namesIn hname) hkept hkey)]
    refine hbefore _ ?_
    rw [h.closed.list_eq h.locate]
    exact List.mem_map_of_mem (Tree.mem_namesIn.2 ⟨h.mem_keys hkept hkey, hsuffix⟩)

/-- All files that have been there before are still there. -/
theorem mem_namesIn (h : Exported library tree tree' directory graphs)
    (hname : name ∈ tree.namesIn directory storedSuffix) :
    name ∈ tree'.namesIn directory storedSuffix := by
  obtain ⟨hkey, hsuffix⟩ := Tree.mem_namesIn.1 hname
  refine Tree.mem_namesIn.2 ⟨?_, hsuffix⟩
  by_cases hwritten : ∃ entry ∈ graphs, name = storedName entry.1
  · obtain ⟨entry, hentry, rfl⟩ := hwritten
    exact (h.files entry hentry).1
  · refine (h.grown.mem_keys_iff (not_fresh fun entry hentry heq => ?_)).2 hkey
    exact hwritten ⟨entry, hentry, heq⟩

/-- Nothing could be read before from the files that were not there. -/
theorem filterMap_eq (h : Exported library tree tree' directory graphs) :
    (tree'.namesIn directory storedSuffix).filterMap
      (fun name => storedGraph? tree (library.compiled.child name)) =
      (tree.list library.compiled storedSuffix).filterMap (storedGraph? tree) := by
  rw [h.closed.list_eq h.locate, List.filterMap_map]
  refine filterMap_of_subset (Tree.sortedLT_namesIn ..) (Tree.sortedLT_namesIn ..)
    (fun _ => h.mem_namesIn) ?_
  intro name hname hmissing
  refine storedGraph?_eq_none (Tree.locate_eq_ok_iff.1 h.locate).2 (ne_dots_of_mem_namesIn hname)
    fun hkey => ?_
  exact hmissing (Tree.mem_namesIn.2 ⟨hkey, (Tree.mem_namesIn.1 hname).2⟩)

/-- The graphs of a library that has been loaded are entered again from the files that they have
been written into. -/
theorem rewritten (h : Exported library tree tree' directory loading.library.sorted)
    (hload : library.load tree = (loading, none)) :
    Rewritten (library.withScripts tree).graphs (tree'.namesIn directory storedSuffix)
      (fun name => storedGraph? tree (library.compiled.child name))
      (fun name => storedGraph? tree' (library.compiled.child name)) := by
  have hgraphs : (library.withScripts tree).graphs.enter
      ((tree'.namesIn directory storedSuffix).filterMap
        fun name => storedGraph? tree (library.compiled.child name)) = loading.library.graphs := by
    rw [h.filterMap_eq, (load_eq_done hload).2.2]
    rfl
  constructor
  case sorted => exact Tree.sortedLT_namesIn ..
  case suffix =>
    intro name hname
    exact (Tree.mem_namesIn.1 hname).2
  case id_old =>
    intro name entry hentry
    obtain ⟨graph, -, rfl⟩ := storedGraph?_eq_some hentry
    exact Path.stem_child ..
  case named =>
    rw [hgraphs]
    intro id hid
    obtain ⟨graph, hget⟩ := Ledger.mem_keys_iff.1 hid
    exact (exportable_of_load hload hget).id
  case written =>
    rw [hgraphs]
    intro id graph hget
    obtain ⟨hkey, hfile⟩ := h.files (id, graph) (mem_sorted_iff.2 hget)
    refine ⟨Tree.mem_namesIn.2 ⟨hkey, isSuffixOf_storedName id⟩, ?_⟩
    have hid : (Path.splitName (storedName id)).1 = id :=
      idOf_storedName (exportable_of_load hload hget).id
    rw [storedGraph?_of_load hfile, Path.stem_child, hid]
  case kept =>
    rw [hgraphs]
    intro name hname hids
    have hkey := (Tree.mem_namesIn.1 hname).1
    have hkept : ∀ entry ∈ loading.library.sorted, name ≠ storedName entry.1 := by
      intro entry hentry
      exact hids entry.1 (Ledger.mem_keys_iff.2 ⟨entry.2, mem_sorted_iff.1 hentry⟩)
    have hread := h.read_eq (ne_dots_of_mem_namesIn hname) hkept hkey
    unfold storedGraph?
    rw [load_congr hread]

end Exported

/-! ## Loading again -/

/-- Writing a loaded library into its directory, which is there, leads to a tree from which it is
loaded as it was. -/
theorem exported_of_write {written : List Path} (hclosed : tree.Closed)
    (hroot : tree.Leads library.root root) (hload : library.load tree = (loading, none))
    (hmade : tree.makeDirectories library.compiled = .ok made)
    (hwritten : writeGraphs library.compiled loading.library.sorted made = (tree', .ok written)) :
    Exported library tree tree' (root.child "compiled") loading.library.sorted := by
  have hdots : "compiled" ≠ ".." := by decide
  obtain ⟨haskable, hleads, hfirst⟩ := Tree.makeDirectories_child hroot hdots hmade
  have hgraphs : ∀ entry ∈ loading.library.sorted, entry.2.Storable := by
    intro entry hentry
    exact (exportable_of_load hload (mem_sorted_iff.1 hentry)).storable
  obtain ⟨hsecond, hfiles⟩ := writeGraphs_eq_ok hleads (nodup_sorted _) hgraphs hwritten
  constructor
  case closed => exact hclosed
  case locate =>
    have hlocate := Tree.locate_eq_ok_iff.2 ⟨haskable, hleads.follow⟩
    rwa [Tree.locate_child hroot (hfirst.leads hroot)] at hlocate
  case leads => exact hsecond.leads hleads
  case grown => exact (hfirst.mono fun _ => .inl).trans (hsecond.mono fun _ => .inr)
  case files => exact hfiles

/-- Nothing is loaded from a directory that is missing, and nothing is written into it when it is
made. -/
theorem load_again_of_missing {written : List Path} (hclosed : tree.Closed)
    (hnames : ".." ∉ library.root.names) (hmissing : ∀ place, ¬ tree.Leads library.root place)
    (hload : library.load tree = (loading, none))
    (hmade : tree.makeDirectories library.compiled = .ok made)
    (hwritten : writeGraphs library.compiled loading.library.sorted made = (tree', .ok written)) :
    ∃ again, (library.withCompiler loading.library.compiler).load tree' = (again, none) ∧
      again.library = loading.library := by
  have hscripts : ∀ suffix, tree.list library.scripts suffix = [] :=
    fun _ => Tree.list_child_eq_nil hmissing
  have hcompiled : ∀ suffix, tree.list library.compiled suffix = [] :=
    fun _ => Tree.list_child_eq_nil hmissing
  obtain ⟨hfound, -, hlibrary⟩ := load_eq_done hload
  replace hlibrary : loading.library = library.cleared := by
    rw [hlibrary, withScripts, hscripts, hcompiled]
    rfl
  obtain rfl : made = tree' := by
    have hnothing : library.cleared.sorted = [] := List.mergeSort_nil
    rw [hlibrary, hnothing] at hwritten
    cases hwritten
    rfl
  have hscripts' : ∀ suffix, made.list library.scripts suffix = [] := fun _ =>
    hclosed.list_eq_nil_of_makeDirectories hnames hmissing (by decide) (by decide) hmade
  have hcompiled' : ∀ suffix, made.list library.compiled suffix = [] := fun _ =>
    hclosed.list_eq_nil_of_makeDirectories hnames hmissing (by decide) (by decide) hmade
  -- there was no script, so the compiler has not been used
  have hsame : library.withCompiler loading.library.compiler = library := by
    rw [hlibrary]
    rfl
  rw [hsame]
  obtain ⟨root, hroot⟩ := Tree.leads_of_makeDirectories hmade
  obtain ⟨again, hagain⟩ : ∃ again, library.load made = (again, none) := by
    refine exists_load (hfound.of_leads hroot) ?_
    rw [hcompiled']
    simp
  refine ⟨again, hagain, ?_⟩
  rw [(load_eq_done hagain).2.2, hlibrary, withScripts, hscripts', hcompiled']
  rfl

theorem load_again_of_leads {written : List Path} (hclosed : tree.Closed)
    (hroot : tree.Leads library.root root) (hload : library.load tree = (loading, none))
    (hmade : tree.makeDirectories library.compiled = .ok made)
    (hwritten : writeGraphs library.compiled loading.library.sorted made = (tree', .ok written)) :
    ∃ again, (library.withCompiler loading.library.compiler).load tree' = (again, none) ∧
      again.library = loading.library := by
  have hexported := exported_of_write hclosed hroot hload hmade hwritten
  obtain ⟨hfound, hentries, hlibrary⟩ := load_eq_done hload
  have hcompiler : loading.library.compiler = (library.withScripts tree).compiler := by
    rw [hlibrary]
    rfl
  rw [hcompiler]
  have hfound' :=
    (hfound.of_leads (hexported.grown.leads hroot)).withCompiler (library.withScripts tree).compiler
  obtain ⟨again, hagain⟩ := exists_load hfound' (hexported.exists_entry hentries)
  have hapart : root.child "scripts" ≠ root.child "compiled" := by
    intro h
    exact absurd (Place.child_inj h).2 (by decide)
  have hscripts : (library.withCompiler (library.withScripts tree).compiler).withScripts tree' =
      library.withScripts tree := by
    have hroot' :
        tree.Leads (library.withCompiler (library.withScripts tree).compiler).root root := hroot
    refine (withScripts_eq hexported.grown hroot' ?_ fun name => ?_).trans
      (withScripts_withCompiler library tree)
    · rintro (hsame | ⟨entry, -, hsame⟩)
      · exact hapart hsame
      · exact Place.child_ne_self _ _ (Place.child_inj hsame).1.symm
    · rintro (hsame | ⟨entry, -, hsame⟩)
      · exact Place.child_ne_self _ _ (Place.child_inj hsame).1
      · exact hapart (Place.child_inj hsame).1
  refine ⟨again, hagain, ?_⟩
  have hlist :
      tree'.list (library.withCompiler (library.withScripts tree).compiler).compiled
        storedSuffix = _ :=
    hexported.list_eq
  rw [(load_eq_done hagain).2.2, hlibrary, hscripts, hlist]
  unfold withStored
  rw [List.filterMap_map, ← hexported.filterMap_eq]
  exact congrArg (fun graphs => { library.withScripts tree with graphs })
    (hexported.rewritten hload).enter_eq

theorem write_eq_ok {written : List Path} (h : (library.write tree none).outcome = .ok written) :
    ∃ made, tree.makeDirectories library.compiled = .ok made ∧
      writeGraphs library.compiled library.sorted made =
        ((library.write tree none).tree, .ok written) := by
  unfold write at h ⊢
  dsimp only [Option.getD] at h ⊢
  cases hmade : tree.makeDirectories library.compiled with
  | error failure =>
    rw [hmade] at h
    cases h
  | ok made =>
    rw [hmade] at h
    refine ⟨made, rfl, ?_⟩
    dsimp only at h ⊢
    cases hwritten : writeGraphs library.compiled library.sorted made with
    | mk last outcome =>
      rw [hwritten] at h
      cases outcome with
      | error failure => cases h
      | ok paths =>
        cases h
        rfl

theorem leads_of_isDirectory {path : Path} (h : tree.isDirectory path = true) :
    ∃ place, tree.Leads path place := by
  unfold Tree.isDirectory at h
  split at h
  · next place hlocate => exact ⟨place, (Tree.locate_eq_ok_iff.1 hlocate).2, beq_iff_eq.1 h⟩
  · cases h

theorem load_of_done (h : (library.load tree).2 = none) :
    library.load tree = ((library.load tree).1, none) :=
  Prod.ext rfl h

theorem exists_ok_of_isSome {ε α : Type} {outcome : Except ε α}
    (h : outcome.toOption.isSome = true) :
    ∃ a, outcome = .ok a := by
  cases outcome with
  | error cause => cases h
  | ok a => exact ⟨a, rfl⟩

/-- A library that has been loaded, and then written into its directory, is loaded as it was: the
same graphs under the same ids and the same warnings, all in the same order, and its compiler is
left as it was. Its directory is one that exists when it is loaded first; one that is missing is
made on writing, and then its path must not lead through double dots. -/
theorem load_after_write {written : List Path} (hclosed : tree.Closed)
    (hroot : tree.isDirectory library.root = true ∨ ".." ∉ library.root.names)
    (hload : library.load tree = (loading, none))
    (hwrite : (loading.library.write tree none).outcome = .ok written) :
    ∃ again, loading.library.load (loading.library.write tree none).tree = (again, none) ∧
      again.library = loading.library := by
  obtain ⟨made, hmade, hwritten⟩ := write_eq_ok hwrite
  have hcompiled := congrArg compiled (cleared_of_load hload)
  replace hcompiled : loading.library.compiled = library.compiled := hcompiled
  rw [hcompiled] at hmade hwritten
  rw [load_of_load hload]
  by_cases hleads : ∃ root, tree.Leads library.root root
  · obtain ⟨root, hleads⟩ := hleads
    exact load_again_of_leads hclosed hleads hload hmade hwritten
  · have hmissing : ∀ root, ¬ tree.Leads library.root root := fun root h => hleads ⟨root, h⟩
    have hnames := hroot.resolve_left fun hdirectory => hleads (leads_of_isDirectory hdirectory)
    exact load_again_of_missing hclosed hnames hmissing hload hmade hwritten

/-- A script beside a stored graph of the same id that is broken. The stored graph is replaced. -/
theorem load_after_write_broken :
    let data : Place := Place.top.child "data"
    let empty : Tree :=
      (((Tree.bare .top).put data .directory).put (data.child "scripts") .directory).put
      (data.child "compiled") .directory
    let script : List UInt8 := Utf8.encode "Ann:\nHi.\n"
    let tree : Tree := (empty.put ((data.child "scripts").child "a.b.dialogue") (.file script)).put
      ((data.child "compiled").child "a.b.json") (.file (Utf8.encode "\x7b"))
    let library : Library := { root := { names := ["data"] } }
    let loading := (library.load tree).1
    loading.library.graphs.keys = ["a.b"] ∧ loading.news.length = 3 ∧
      ∃ again, loading.library.load (loading.library.write tree none).tree = (again, none) ∧
        again.library = loading.library := by
  intro data empty script tree library loading
  have hdirectories : empty.Closed :=
    (((Tree.closed_bare .top).put (by decide) rfl _).put (by decide) rfl _).put (by decide) rfl _
  have hclosed : tree.Closed := (hdirectories.put (by decide) rfl _).put (by decide) rfl _
  have hload : library.load tree = (loading, none) :=
    load_of_done (Option.isNone_iff_eq_none.1 (by decide +kernel))
  obtain ⟨written, hwrite⟩ : ∃ written, (loading.library.write tree none).outcome = .ok written :=
    exists_ok_of_isSome (by decide +kernel)
  have hroot : tree.isDirectory library.root = true ∨ ".." ∉ library.root.names :=
    .inl (by decide +kernel)
  exact ⟨by decide +kernel, by decide +kernel, load_after_write hclosed hroot hload hwrite⟩

end Colloquy.Library
