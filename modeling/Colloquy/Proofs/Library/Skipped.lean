import Colloquy.Proofs.Library.Failures
import Colloquy.Proofs.Library.Precompiled

/-!
# Files that cannot be read are passed over

A loading comes to its end unless a stored file breaks it off. Every file that cannot be read is
logged and reported then, in the order of the files, and all else goes as it would if these files
were not there: the same graphs and warnings are loaded, and the same is logged and reported
besides (`unreadable_passed_over`).
-/

namespace Colloquy.Library

open Files

variable {library : Library} {tree tree' : Tree} {loading loading' : Loading}

/-- The report about a file that cannot be read. -/
def failedNews (failure : Path × String) : News :=
  .failed failure.1.text failure.2

theorem filter_entryNews (entry : Entry) :
    (Loading.entryNews entry).filter (·.kind = .failed) = entry.failure?.toList.map failedNews := by
  cases entry <;> rfl

namespace Loading

/-! ## Loadings without failures -/

/-- A loading has gone like another one, but for the files that could not be read. -/
structure Cleansed (loading loading' : Loading) : Prop where
  library : loading'.library = loading.library
  log : loading'.log = loading.log.filter (·.level ≠ .error)
  news : loading'.news = loading.news.filter (·.kind ≠ .failed)

namespace Cleansed

/-- An entry that could be read is taken in by both. -/
theorem take (h : Cleansed loading loading') {entry : Entry} (hread : entry.failure? = none) :
    Cleansed (loading.take entry) (loading'.take entry) where
  library := by
    show loading'.library.take entry = loading.library.take entry
    rw [h.library]
  log := by
    show loading'.log ++ entryLog loading'.library entry =
      (loading.log ++ entryLog loading.library entry).filter (·.level ≠ .error)
    have hquiet := filter_entryLog loading.library entry
    rw [hread] at hquiet
    rw [List.filter_append, ← h.log, h.library, List.filter_eq_self.2]
    intro line hline
    simpa using List.filter_eq_nil_iff.1 hquiet line hline
  news := by
    show loading'.news ++ entryNews entry =
      (loading.news ++ entryNews entry).filter (·.kind ≠ .failed)
    have hquiet := filter_entryNews entry
    rw [hread] at hquiet
    rw [List.filter_append, ← h.news, List.filter_eq_self.2]
    intro news hnews
    simpa using List.filter_eq_nil_iff.1 hquiet news hnews

/-- A file that could not be read leaves nothing but an error and a report. -/
theorem skip (h : Cleansed loading loading') {entry : Entry} {failure : Path × String}
    (hfailure : entry.failure? = some failure) : Cleansed (loading.take entry) loading' := by
  cases entry with
  | script path compiled => cases hfailure
  | stored path graph => cases hfailure
  | failure path problem =>
    constructor
    case library => exact h.library
    case log =>
      show loading'.log = (loading.log ++ [_]).filter _
      rw [List.filter_append, ← h.log]
      exact (List.append_nil _).symm
    case news =>
      show loading'.news = (loading.news ++ [_]).filter _
      rw [List.filter_append, ← h.news]
      exact (List.append_nil _).symm

theorem foldl (h : Cleansed loading loading') (entries : List Entry) :
    Cleansed (entries.foldl Loading.take loading)
      ((entries.filter (·.failure?.isNone)).foldl Loading.take loading') := by
  induction entries generalizing loading loading' with
  | nil => exact h
  | cons entry entries ih =>
    cases hfailure : entry.failure? with
    | none =>
      rw [List.filter_cons_of_pos (by simp [hfailure])]
      exact ih (h.take hfailure)
    | some failure =>
      rw [List.filter_cons_of_neg (by simp [hfailure])]
      exact ih (h.skip hfailure)

theorem say (h : Cleansed loading loading') {level : Level} (hlevel : level ≠ .error)
    (message : String) :
    Cleansed (loading.say level message) (loading'.say level message) where
  library := h.library
  log := by
    show loading'.log ++ [_] = (loading.log ++ [_]).filter _
    rw [List.filter_append, ← h.log, List.filter_cons_of_pos (by simpa using hlevel)]
    rfl
  news := h.news

/-- Both may be left with the same compiler. -/
theorem withCompiler (h : Cleansed loading loading') {compiler compiler' : Script.Compiler}
    (hcompiler : compiler' = compiler) :
    Cleansed (loading.withCompiler compiler) (loading'.withCompiler compiler') where
  library := by
    show loading'.library.withCompiler compiler' = loading.library.withCompiler compiler
    rw [h.library, hcompiler]
  log := h.log
  news := h.news

theorem close (h : Cleansed loading loading') : Cleansed loading.close loading'.close := by
  unfold Loading.close
  dsimp only
  rw [h.library]
  have hsaid :=
    h.say (show Level.info ≠ .error by decide)
      s!"Loaded {loading.library.graphs.size} dialogue graphs."
  constructor
  case library => exact hsaid.library
  case log => exact hsaid.log
  case news =>
    show loading'.news ++ [_] = (loading.news ++ [_]).filter _
    rw [List.filter_append, ← h.news]
    rfl

section Without

variable (hwithout : Tree.Without (library.Fallen tree) tree tree')
  (hroot : ∀ root, tree.Leads library.root root → tree'.Leads library.root root)

include hwithout hroot

theorem readScripts
    (h : Loading.readScripts tree { library := library.cleared } = (loading, none)) :
    ∃ loading', Loading.readScripts tree' { library := library.cleared } = (loading', none) ∧
      Cleansed loading loading' := by
  have hstart : Cleansed { library := library.cleared } { library := library.cleared } :=
    ⟨rfl, rfl, rfl⟩
  have hfind : tree'.exists? library.cleared.scripts = tree.exists? library.cleared.scripts :=
    exists?_part hwithout hroot .scripts
  have hentries :
      (tree'.list library.cleared.scripts scriptSuffix).map
        (Entry.ofScript library.cleared.settings tree') =
      ((tree.list library.cleared.scripts scriptSuffix).map
        (Entry.ofScript library.cleared.settings tree)).filter
        (·.failure?.isNone) :=
    entriesIn_without hwithout hroot .scripts
  have hcompiler := compilerAfter_without hwithout hroot library.cleared.compiler
  unfold Loading.readScripts at h ⊢
  dsimp only at h ⊢
  rw [hfind]
  split at h
  · cases h
  · cases h
    exact ⟨_, rfl, hstart.say (by decide) _⟩
  · cases h
    refine ⟨_, rfl, ?_⟩
    rw [foldl_takeScript, foldl_takeScript, hentries]
    refine Cleansed.withCompiler (hstart.foldl _) ?_
    exact hcompiler

theorem readGraphs (h : Cleansed loading loading')
    (hcompiled : loading.library.compiled = library.compiled) :
    Cleansed (loading.readGraphs tree) (loading'.readGraphs tree') := by
  have hfind : tree'.exists? library.compiled = tree.exists? library.compiled :=
    exists?_part hwithout hroot .stored
  have hentries : (tree'.list library.compiled storedSuffix).map (Entry.ofGraph tree') =
      ((tree.list library.compiled storedSuffix).map (Entry.ofGraph tree)).filter
        (·.failure?.isNone) :=
    entriesIn_without hwithout hroot .stored
  unfold Loading.readGraphs
  dsimp only
  rw [h.library, hcompiled, hfind, hentries]
  split
  · exact h.foldl _
  · exact h.say (by decide) _

end Without

end Cleansed

end Loading

/-! ## Loading -/

/-- Loading comes to its end exactly if both directories can be asked for, and no stored file
breaks it off. -/
theorem load_done_iff :
    (library.load tree).2 = none ↔
      library.Findable tree ∧
        ∀ path ∈ tree.list library.compiled storedSuffix, ¬ BreaksOff tree path := by
  constructor
  · intro h
    obtain ⟨hfound, hentries, -⟩ := load_eq_done (load_of_done h)
    exact ⟨hfound, fun path hpath => exists_entry_iff.1 (hentries path hpath)⟩
  · rintro ⟨hfound, h⟩
    obtain ⟨loading, hload⟩ :=
      exists_load hfound fun path hpath => exists_entry_iff.2 (h path hpath)
    exact congrArg Prod.snd hload

/-- The two directories of a library that is there can be asked for, unless their paths are too
long. -/
theorem findable_of_leads {root : Place} (hroot : tree.Leads library.root root)
    (hscripts : library.scripts.Askable) (hcompiled : library.compiled.Askable) :
    library.Findable tree where
  scripts := hroot.exists?_child_of_askable (by decide) hscripts
  stored := hroot.exists?_child_of_askable (by decide) hcompiled

theorem failed_of_load (h : library.load tree = (loading, none)) :
    loading.news.filter (·.kind = .failed) = (library.failures tree).map failedNews := by
  have hentries :
      ∀ entries : List Entry, (entries.flatMap Loading.entryNews).filter (·.kind = .failed) =
      (entries.filterMap Entry.failure?).map failedNews := by
    intro entries
    induction entries with
    | nil => rfl
    | cons entry entries ih =>
      rw [List.flatMap_cons, List.filter_append, filter_entryNews, ih, List.filterMap_cons]
      cases entry.failure? <;> rfl
  rw [news_of_load h, List.filter_append, hentries]
  exact List.append_nil _

/-- Without the files that cannot be read, the library is loaded as with them. -/
theorem load_without (hwithout : Tree.Without (library.Fallen tree) tree tree')
    (hroot : ∀ root, tree.Leads library.root root → tree'.Leads library.root root)
    (h : library.load tree = (loading, none)) :
    ∃ loading', library.load tree' = (loading', none) ∧ loading.Cleansed loading' := by
  obtain ⟨loading', hload'⟩ : ∃ loading', library.load tree' = (loading', none) := by
    refine exists_load (findable_without hwithout hroot (load_eq_done h).1) fun path hpath => ?_
    replace hpath : path ∈ library.files tree' .stored := hpath
    rw [files_without hwithout hroot] at hpath
    obtain ⟨hbefore, hread⟩ := List.mem_filter.1 hpath
    rw [ofStored_congr (read_without hwithout hroot hbefore hread)]
    exact (load_eq_done h).2.1 path hbefore
  refine ⟨loading', hload', ?_⟩
  obtain ⟨read, hscripts, rfl⟩ := load_eq_close h
  obtain ⟨read', hscripts', rfl⟩ := load_eq_close hload'
  obtain ⟨last, hlast, hread⟩ := Loading.Cleansed.readScripts hwithout hroot hscripts
  obtain rfl : last = read' := (Prod.ext_iff.1 (hlast.symm.trans hscripts')).1
  have hcompiled : read.library.compiled = library.compiled := by
    rw [(Loading.readScripts_eq_done hscripts).2, compiled_withScripts]
  exact (hread.readGraphs hwithout hroot hcompiled).close

/-- If the two directories can be asked for, as they can where the directory of the library is
there and no path is too long, and no stored file breaks it off, a loading logs and reports every
file that cannot be read, and nothing else fails: what is loaded, logged and reported besides is
the same in a tree from which these files have been taken away. The directory of the library must
still be found there, which could fail only if the way to it led through one of these files, and
back out by double dots. -/
theorem unreadable_passed_over (library : Library) (tree : Tree) :
    ((library.load tree).2 = none ↔
      library.Findable tree ∧
        ∀ path ∈ tree.list library.compiled storedSuffix, ¬ BreaksOff tree path) ∧
      (∀ root, tree.Leads library.root root → library.scripts.Askable → library.compiled.Askable →
        library.Findable tree) ∧
      ∀ loading, library.load tree = (loading, none) →
        loading.news.filter (·.kind = .failed) = (library.failures tree).map failedNews ∧
        loading.errors = (library.failures tree).map Loading.failedLog ∧
        ∀ tree', Tree.Without (library.Fallen tree) tree tree' →
          (".." ∉ library.root.names ∨ ∀ root,
            tree.Leads library.root root → tree'.Leads library.root root) →
            ∃ loading', library.load tree' = (loading', none) ∧ loading.Cleansed loading' := by
  refine ⟨load_done_iff, fun root => findable_of_leads, fun loading hload => ?_⟩
  refine ⟨failed_of_load hload, errors_of_load hload, ?_⟩
  intro tree' hwithout hroot
  refine load_without hwithout (fun root hleads => ?_) hload
  obtain hnames | hroot := hroot
  · refine hwithout.leads hnames hleads fun above habove => not_fallen hleads ?_
    exact (Place.depth_le_of_isAbove habove).trans (Nat.le_succ _)
  · exact hroot root hleads

/-- A script that is not in UTF-8, a directory in the place of one, a script, and a broken stored
graph. Only the script is loaded, as without the others. -/
theorem unreadable_passed_over_mixed :
    let data : Place := Place.top.child "data"
    let scripts : Place := data.child "scripts"
    let compiled : Place := data.child "compiled"
    let empty : Tree :=
      (((Tree.bare .top).put data .directory).put scripts .directory).put compiled .directory
    let tree : Tree := (((empty.put
      (scripts.child "a.dialogue") (.file [0xff])).put
      (scripts.child "b.dialogue") .directory).put
      (scripts.child "c.dialogue") (.file (Utf8.encode "Ann:\nHi.\n"))).put
      (compiled.child "c.json") (.file (Utf8.encode "\x7b"))
    let library : Library := { root := { names := ["data"] } }
    let loading := (library.load tree).1
    (library.failures tree).map (·.1.name) = ["a.dialogue", "b.dialogue", "c.json"] ∧
      (loading.library.graphs.get? "c").map Graph.size = some 1 ∧
      loading.news.filter (·.kind = .failed) = (library.failures tree).map failedNews ∧
      loading.errors = (library.failures tree).map Loading.failedLog ∧
      ∃ tree', Tree.Without (library.Fallen tree) tree tree' ∧
        ∃ loading', library.load tree' = (loading', none) ∧ loading.Cleansed loading' := by
  intro data scripts compiled empty tree library loading
  have hscripts : tree.list library.scripts scriptSuffix =
      ["a.dialogue", "b.dialogue", "c.dialogue"].map library.scripts.child :=
    Tree.list_of_sorted scripts (by decide +kernel) (by decide +kernel) (by decide +kernel)
      (by decide +kernel)
  have hstored : tree.list library.compiled storedSuffix = ["c.json"].map library.compiled.child :=
    Tree.list_of_sorted compiled (by decide +kernel) (by decide +kernel) (by decide +kernel)
      (by decide +kernel)
  obtain ⟨hdone, hfindable, hloaded⟩ := unreadable_passed_over library tree
  have hload : library.load tree = (loading, none) := by
    have hroot : tree.Leads library.root data := ⟨rfl, rfl⟩
    refine load_of_done (hdone.2 ⟨hfindable data hroot ?_ ?_, ?_⟩)
    · exact ⟨by decide, by decide⟩
    · exact ⟨by decide, by decide⟩
    rw [hstored]
    refine List.forall_mem_singleton.2 (exists_entry_iff.1 (exists_ok_of_isSome ?_))
    decide +kernel
  obtain ⟨hnews, herrors, hwithout⟩ := hloaded loading hload
  obtain ⟨tree', htree⟩ := Tree.exists_without (library.Fallen tree) tree
  refine ⟨?_, ?_, hnews, herrors, tree', htree, hwithout tree' htree (.inl (by decide))⟩
  · unfold failures entries
    rw [hscripts, hstored]
    decide +kernel
  · rw [library_of_load hload]
    unfold entries
    rw [hscripts, hstored]
    decide +kernel

/-- A stored file that is not in UTF-8 is neither logged nor reported, and the loading does not
come to its end. -/
theorem not_always_loaded :
    let data : Place := Place.top.child "data"
    let compiled : Place := data.child "compiled"
    let empty : Tree := ((Tree.bare .top).put data .directory).put compiled .directory
    let tree : Tree := empty.put (compiled.child "a.json") (.file [0xff])
    let library : Library := { root := { names := ["data"] } }
    (library.failures tree).length = 1 ∧ (library.load tree).2 ≠ none ∧
    (library.load tree).1.errors = [] ∧
      (library.load tree).1.news = [] := by
  intro data compiled empty tree library
  refine ⟨by decide +kernel, fun hnone => ?_, by decide +kernel, by decide +kernel⟩
  exact absurd (congrArg Option.isSome hnone) (by decide +kernel)

end Colloquy.Library
