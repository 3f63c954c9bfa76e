import Colloquy.Proofs.Library.Contents

/-!
# Loading, file by file

A loading that comes to its end takes in what every file gives, the scripts first, and says
nothing else than that a directory is missing and how many graphs there are (`load_eq_close`).
Whatever was known of the files before does not matter, and neither does what another file gives:
each entry adds its own graph, warnings, news and errors, in turn (`took_of_load`).
-/

namespace Colloquy.Library

open Files

variable {library : Library} {tree : Tree} {path : Path} {loading : Loading}

/-! ## Entries -/

/-- What a stored file gives that does not break the loading off. -/
def Entry.ofGraph (tree : Tree) (path : Path) : Entry :=
  match Graph.load tree path with
  | .ok graph => .stored path graph
  | .error problem => .failure path problem

theorem Entry.eq_ofGraph {entry : Entry} (h : Entry.ofStored tree path = .ok entry) :
    entry = Entry.ofGraph tree path := by
  unfold Entry.ofStored at h
  unfold Entry.ofGraph
  cases hgraph : Graph.load tree path with
  | ok graph =>
    rw [hgraph] at h
    exact (Except.ok.inj h).symm
  | error problem =>
    rw [hgraph] at h
    dsimp only at h ⊢
    split at h
    · exact (Except.ok.inj h).symm
    · cases h

/-- What the files of a library give, in the order in which they are read. -/
def entries (library : Library) (tree : Tree) : List Entry :=
  (tree.list library.scripts scriptSuffix).map (Entry.ofScript library.settings tree) ++
    (tree.list library.compiled storedSuffix).map (Entry.ofGraph tree)

/-- The warnings that an entry adds, under its id. -/
def Entry.warnings? : Entry → Option (String × List Script.Warning)
  | .script path compiled =>
    if compiled.warnings.isEmpty then none else some (path.stem, compiled.warnings)
  | .stored .. => none
  | .failure .. => none

theorem warnings_foldl_take (entries : List Entry) (library : Library) :
    (entries.foldl take library).warnings =
      library.warnings.enter (entries.filterMap Entry.warnings?) := by
  induction entries generalizing library with
  | nil => rfl
  | cons entry entries ih =>
    rw [List.foldl_cons, ih, List.filterMap_cons]
    cases entry with
    | script path compiled =>
      rw [take, Entry.warnings?]
      dsimp only
      split <;> rfl
    | stored path graph => rfl
    | failure path problem => rfl

/-- The file of an entry and what is wrong with it, if it could not be read. -/
def Entry.failure? : Entry → Option (Path × String)
  | .failure path problem => some (path, problem.message)
  | .script .. => none
  | .stored .. => none

namespace Loading

/-! ## Entries that are taken in -/

variable {loading' last : Loading} {entries more : List Entry}

/-- What the log says about a file that could not be read. -/
def failedLog (failure : Path × String) : LogEntry :=
  ⟨.error, .library, s!"Failed to load {failure.1.text}: {failure.2}"⟩

/-- The errors among what the log says. -/
def errors (loading : Loading) : List LogEntry :=
  loading.log.filter (·.level = .error)

/-- Only a file that could not be read is an error. -/
theorem filter_entryLog (library : Library) (entry : Entry) :
    (entryLog library entry).filter (·.level = .error) = entry.failure?.toList.map failedLog := by
  cases entry with
  | script path compiled =>
    simp [entryLog, Script.Compiled.log, Entry.failure?]
  | stored path graph =>
    rw [entryLog]
    split <;> rfl
  | failure path problem => rfl

/-- One loading comes from another by taking in entries, with no other news and no other errors.
Only the compiler may have changed besides. -/
structure Took (entries : List Entry) (loading loading' : Loading) : Prop where
  library : loading'.library =
    (entries.foldl Library.take loading.library).withCompiler loading'.library.compiler
  news : loading'.news = loading.news ++ entries.flatMap entryNews
  errors : loading'.errors = loading.errors ++ (entries.filterMap Entry.failure?).map failedLog

theorem Took.refl (loading : Loading) : Took [] loading loading :=
  ⟨rfl, (List.append_nil _).symm, (List.append_nil _).symm⟩

theorem Took.trans (h : Took entries loading loading') (h' : Took more loading' last) :
    Took (entries ++ more) loading last where
  library := by
    rw [List.foldl_append, h'.library, h.library, Library.foldl_take_withCompiler]
    rfl
  news := by rw [h'.news, h.news, List.flatMap_append, List.append_assoc]
  errors := by rw [h'.errors, h.errors, List.filterMap_append, List.map_append, List.append_assoc]

theorem Took.take (loading : Loading) (entry : Entry) :
    Took [entry] loading (loading.take entry) where
  library := by cases entry <;> rfl
  news := by rw [List.flatMap_singleton]; rfl
  errors := by
    show (loading.log ++ entryLog loading.library entry).filter (·.level = .error) = _
    rw [List.filter_append, filter_entryLog]
    cases entry <;> rfl

/-- The compiler is none of what is taken in. -/
theorem Took.withCompiler (h : Took entries loading loading') (compiler : Script.Compiler) :
    Took entries loading (loading'.withCompiler compiler) where
  library := by
    show loading'.library.withCompiler compiler = _
    rw [h.library]
    rfl
  news := h.news
  errors := h.errors

theorem Took.foldl (entries : List Entry) (loading : Loading) :
    Took entries loading (entries.foldl Loading.take loading) := by
  induction entries generalizing loading with
  | nil => exact .refl loading
  | cons entry entries ih => exact (Took.take loading entry).trans (ih _)

theorem Took.say {level : Level} (hlevel : level ≠ .error) (loading : Loading) (message : String) :
    Took [] loading (loading.say level message) where
  library := rfl
  news := (List.append_nil _).symm
  errors := by
    unfold Loading.errors Loading.say
    rw [List.filter_append, List.filter_cons_of_neg (by simpa using hlevel)]
    rfl

theorem took_readScripts (h : loading.readScripts tree = (loading', none)) :
    Took ((tree.list loading.library.scripts scriptSuffix).map
      (Entry.ofScript loading.library.settings tree)) loading loading' := by
  unfold readScripts at h
  dsimp only at h
  split at h
  · cases h
  · next hmissing =>
    cases h
    rw [Tree.list_of_exists?_eq_false hmissing]
    exact .say (by decide) loading _
  · cases h
    rw [foldl_takeScript]
    exact (Took.foldl _ loading).withCompiler _

/-- Reads the stored graphs, none of which breaks it off. -/
def readGraphs (tree : Tree) (loading : Loading) : Loading :=
  let library := loading.library
  match tree.exists? library.compiled with
  | .ok true =>
      ((tree.list library.compiled storedSuffix).map (Entry.ofGraph tree)).foldl take loading
  | _ => loading.say .debug s!"Compiled graph directory not found: {library.compiled.text}"

theorem takeStored_eq_foldl {paths : List Path}
    (h : takeStored tree paths loading = (loading', none)) :
    loading' = (paths.map (Entry.ofGraph tree)).foldl take loading := by
  induction paths generalizing loading with
  | nil =>
    cases h
    rfl
  | cons path paths ih =>
    rw [takeStored] at h
    split at h
    · next entry hentry =>
      rw [ih h, Entry.eq_ofGraph hentry]
      rfl
    · cases h

theorem eq_readGraphs (h : loading.readStored tree = (loading', none)) :
    loading' = loading.readGraphs tree := by
  unfold readStored at h
  unfold readGraphs
  dsimp only at h ⊢
  split at h
  · cases h
  · next hmissing =>
    rw [hmissing]
    exact (Prod.ext_iff.1 h).1.symm
  · next hfound =>
    rw [hfound]
    exact takeStored_eq_foldl h

theorem took_readStored (h : loading.readStored tree = (loading', none)) :
    Took ((tree.list loading.library.compiled storedSuffix).map
      (Entry.ofGraph tree)) loading loading' := by
  unfold readStored at h
  dsimp only at h
  split at h
  · cases h
  · next hmissing =>
    cases h
    rw [Tree.list_of_exists?_eq_false hmissing]
    exact .say (by decide) loading _
  · rw [takeStored_eq_foldl h]
    exact .foldl _ loading

end Loading

/-! ## Loading -/

/-- A loading that comes to its end has read the scripts, and then the stored graphs, from
nothing. -/
theorem load_eq_close (h : library.load tree = (loading, none)) :
    ∃ read, Loading.readScripts tree { library := library.cleared } = (read, none) ∧
      loading = (read.readGraphs tree).close := by
  obtain ⟨read, last, hscripts, hstored, rfl⟩ := load_steps_iff.1 h
  exact ⟨read, hscripts, congrArg Loading.close (Loading.eq_readGraphs hstored)⟩

/-- All that is loaded, told and refused is from the files, whatever was loaded before. -/
theorem took_of_load (h : library.load tree = (loading, none)) :
    ∃ read : Loading, loading = read.close ∧
      Loading.Took (library.entries tree) { library := library.cleared } read := by
  obtain ⟨read, last, hscripts, hstored, rfl⟩ := load_steps_iff.1 h
  have hgraphs := Loading.took_readStored hstored
  rw [(Loading.readScripts_eq_done hscripts).2, compiled_withScripts] at hgraphs
  exact ⟨last, rfl, (Loading.took_readScripts hscripts).trans hgraphs⟩

theorem library_of_load (h : library.load tree = (loading, none)) :
    loading.library =
      ((library.entries tree).foldl take library.cleared).withCompiler
        loading.library.compiler := by
  obtain ⟨read, rfl, hread⟩ := took_of_load h
  exact hread.library

theorem news_of_load (h : library.load tree = (loading, none)) :
    loading.news = (library.entries tree).flatMap Loading.entryNews ++
      [.loaded loading.library.graphs.size] := by
  obtain ⟨read, rfl, hread⟩ := took_of_load h
  exact congrArg (· ++ [News.loaded read.library.graphs.size]) hread.news

theorem errors_of_load (h : library.load tree = (loading, none)) :
    loading.errors = ((library.entries tree).filterMap Entry.failure?).map Loading.failedLog := by
  obtain ⟨read, rfl, hread⟩ := took_of_load h
  have hclose : read.close.errors = read.errors := by
    have hsay := (Loading.Took.say (show Level.info ≠ .error by decide) read
      s!"Loaded {read.library.graphs.size} dialogue graphs.").errors
    exact hsay.trans (List.append_nil _)
  exact hclose.trans hread.errors

end Colloquy.Library
