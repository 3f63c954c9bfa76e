import Colloquy.Library.Export
import Colloquy.Proofs.Files.Directories
import Colloquy.Proofs.Graph.RoundTrip

/-!
# What is in a library that has been written

Graphs are written under their ids with the suffix of stored graphs behind them. What is read at
another path is read as before, so a graph that has been written is loaded as long as no other one
has its id.
-/

namespace Colloquy.Library

open Files

/-- The name of the file of the graph with an id. -/
def storedName (id : String) : String :=
  id ++ storedSuffix

theorem storedName_ne_dots (id : String) : storedName id ≠ ".." := by
  intro h
  have hlength := congrArg String.length h
  rw [storedName, String.length_append] at hlength
  have hsuffix : storedSuffix.length = 5 := rfl
  have hdots : "..".length = 2 := rfl
  omega

theorem storedName_injective {id other : String} (h : storedName id = storedName other) :
    id = other := by
  rw [storedName, storedName, String.ext_iff, String.toList_append, String.toList_append,
    List.append_left_inj] at h
  exact String.ext_iff.2 h

theorem isSuffixOf_storedName (id : String) :
    storedSuffix.toList.isSuffixOf (storedName id).toList = true := by
  rw [List.isSuffixOf_iff_suffix, storedName, String.toList_append]
  exact List.suffix_append ..

variable {tree tree' : Tree} {directory path : Path} {place : Place}
    {graphs : List (String × Graph)}

/-! ## Reading at a path -/

theorem load_congr (h : tree'.read path = tree.read path) :
    Graph.load tree' path = Graph.load tree path := by
  unfold Graph.load Tree.readJson Tree.readText
  rw [h]

theorem read_of_load {graph : Graph} (h : Graph.load tree path = .ok graph) :
    ∃ bytes, tree.read path = .ok bytes := by
  unfold Graph.load Tree.readJson Tree.readText at h
  cases hread : tree.read path with
  | error failure =>
    rw [hread] at h
    cases h
  | ok bytes => exact ⟨bytes, rfl⟩

theorem ofStored_of_load {graph : Graph} (h : Graph.load tree path = .ok graph) :
    Entry.ofStored tree path = .ok (.stored path graph) := by
  rw [Entry.ofStored, h]

theorem ofStored_congr (h : tree'.read path = tree.read path) :
    Entry.ofStored tree' path = Entry.ofStored tree path := by
  rw [Entry.ofStored, Entry.ofStored, load_congr h]

/-! ## Writing -/

/-- A graph is written into a file in the directory, where no directory stands. -/
theorem save_child_eq_ok (hleads : tree.Leads directory place) {id : String} {graph : Graph}
    (h : graph.save tree (directory.child (storedName id)) = .ok tree') :
    ∃ bytes, tree.item? (place.child (storedName id)) ≠ some .directory ∧
      tree' = tree.put (place.child (storedName id)) (.file bytes) := by
  obtain ⟨target, hlocate, htarget, rfl⟩ := Tree.write_eq_ok h
  obtain rfl := hleads.eq_child (storedName_ne_dots id) hlocate
  exact ⟨_, htarget, rfl⟩

/-- A place is that of the file of one of some graphs in a directory. -/
def HoldsOneOf (graphs : List (String × Graph)) (directory file : Place) : Prop :=
  ∃ entry ∈ graphs, file = directory.child (storedName entry.1)

theorem holdsOneOf_child_iff {name : String} :
    HoldsOneOf graphs place (place.child name) ↔ ∃ entry ∈ graphs, name = storedName entry.1 := by
  constructor
  · rintro ⟨entry, hentry, hname⟩
    exact ⟨entry, hentry, (Place.child_inj hname).2⟩
  · rintro ⟨entry, hentry, rfl⟩
    exact ⟨entry, hentry, rfl⟩

/-- The first of some graphs is written, and then the others. -/
theorem writeGraphs_cons_eq_ok {id : String} {graph : Graph} {written : List Path}
    (h : writeGraphs directory ((id, graph) :: graphs) tree = (tree', .ok written)) :
    ∃ between rest, graph.save tree (directory.child (storedName id)) = .ok between ∧
      writeGraphs directory graphs between = (tree', .ok rest) := by
  rw [writeGraphs] at h
  dsimp only at h
  split at h
  · cases h
  · next between hsave =>
    refine ⟨between, ?_⟩
    cases houtcome : writeGraphs directory graphs between with
    | mk last outcome =>
      rw [houtcome] at h
      cases outcome with
      | error failure => cases h
      | ok rest =>
        cases h
        exact ⟨rest, hsave, rfl⟩

/-- Writing graphs with different ids changes nothing but their files, from which they are
loaded. -/
theorem writeGraphs_eq_ok {written : List Path} (hleads : tree.Leads directory place)
    (hids : (Entries.keys graphs).Nodup) (hgraphs : ∀ entry ∈ graphs, entry.2.Storable)
    (h : writeGraphs directory graphs tree = (tree', .ok written)) :
    Tree.Grown (HoldsOneOf graphs place) tree tree' ∧
      ∀ entry ∈ graphs, place.child (storedName entry.1) ∈ tree'.items.keys ∧
        Graph.load tree' (directory.child (storedName entry.1)) = .ok entry.2 := by
  induction graphs generalizing tree written with
  | nil =>
    cases h
    exact ⟨.refl _, by simp⟩
  | cons entry graphs ih =>
    obtain ⟨id, graph⟩ := entry
    obtain ⟨between, rest, hsave, hrest⟩ := writeGraphs_cons_eq_ok h
    obtain ⟨hnew, hids⟩ := List.nodup_cons.1 hids
    obtain ⟨hgraph, hgraphs⟩ := List.forall_mem_cons.1 hgraphs
    have hload := load_of_save hgraph hsave
    obtain ⟨bytes, htarget, hbetween⟩ := save_child_eq_ok hleads hsave
    have hfirst : Tree.Grown (HoldsOneOf ((id, graph) :: graphs) place) tree between := by
      rw [hbetween]
      exact .put htarget ⟨_, List.mem_cons_self .., rfl⟩ _
    obtain ⟨hlast, hothers⟩ := ih (hfirst.leads hleads) hids hgraphs hrest
    -- no other graph has the same id, so the first file is still there in the end
    have hkept : ¬ HoldsOneOf graphs place (place.child (storedName id)) := by
      rw [holdsOneOf_child_iff]
      rintro ⟨other, hother, hname⟩
      exact hnew (List.mem_map.2 ⟨other, hother, (storedName_injective hname).symm⟩)
    refine ⟨hfirst.trans (hlast.mono ?_), List.forall_mem_cons.2 ⟨⟨?_, ?_⟩, hothers⟩⟩
    · rintro file ⟨other, hother, rfl⟩
      exact ⟨other, List.mem_cons_of_mem _ hother, rfl⟩
    · rw [hlast.mem_keys_iff hkept, hbetween, Ledger.mem_keys_iff]
      exact ⟨_, Ledger.get?_insert_self ..⟩
    · have hread := hlast.read_child (hfirst.leads hleads) (storedName_ne_dots id) hkept
      rw [load_congr hread, hload]

end Colloquy.Library
