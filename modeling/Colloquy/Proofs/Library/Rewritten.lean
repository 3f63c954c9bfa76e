import Colloquy.Proofs.Files.Names
import Colloquy.Proofs.Library.Written

/-!
# Files that are written again

The graphs in a directory are entered in the order of the names of their files. If each graph that
has been entered is written into the file that its id names, and no other file changes, the same
graphs are entered again, in the same order. The one name that is not the id with the suffix
behind it, the suffix itself, comes before the name that its id is written under.
-/

namespace Colloquy.Library

/-- The id of the graph in a file with a name. -/
def idOf (name : String) : String :=
  (Files.Path.splitName name).1

theorem idOf_storedName {id : String} (h : id ≠ "") : idOf (storedName id) = id := by
  have hsplit := Files.Path.splitName_append h (show "json" ≠ "" by decide) (by decide)
  exact congrArg Prod.fst hsplit

/-- A name with the suffix is that of the file that its id is written into, or comes before it. -/
theorem storedName_idOf {name : String} (h : storedSuffix.toList.isSuffixOf name.toList = true) :
    name = storedName (idOf name) ∨ name < storedName (idOf name) := by
  rcases Files.Path.name_of_suffix (show "json" ≠ "" by decide) (by decide) h with hname | rfl
  · exact .inl hname
  · exact .inr (by decide)

/-- The graphs in a directory before and after all graphs of a library have been written into it:
each is in the file that its id names, and the other files are as they were. -/
structure Rewritten (base : Ledger String Graph) (names : List String)
    (old new : String → Option (String × Graph)) : Prop where
  sorted : names.SortedLT
  suffix : ∀ name ∈ names, storedSuffix.toList.isSuffixOf name.toList = true
  /-- A graph is entered under the id of its file. -/
  id_old : ∀ name entry, old name = some entry → entry.1 = idOf name
  named : ∀ id ∈ (base.enter (names.filterMap old)).keys, id ≠ ""
  written : ∀ id graph, (base.enter (names.filterMap old)).get? id = some graph →
    storedName id ∈ names ∧ new (storedName id) = some (id, graph)
  kept : ∀ name ∈ names, (∀ id ∈ (base.enter (names.filterMap old)).keys, name ≠ storedName id) →
    new name = old name

namespace Rewritten

variable {base : Ledger String Graph} {names : List String}
    {old new : String → Option (String × Graph)}

/-- After writing, too, a graph is entered under the id of its file. -/
theorem id_new (h : Rewritten base names old new) {name : String} (hname : name ∈ names)
    {entry : String × Graph} (hentry : new name = some entry) : entry.1 = idOf name := by
  by_cases hwritten : ∃ id ∈ (base.enter (names.filterMap old)).keys, name = storedName id
  · obtain ⟨id, hid, rfl⟩ := hwritten
    obtain ⟨graph, hgraph⟩ := Ledger.mem_keys_iff.1 hid
    rw [(h.written id graph hgraph).2] at hentry
    cases hentry
    exact (idOf_storedName (h.named id hid)).symm
  · rw [h.kept name hname fun id hid hname => hwritten ⟨id, hid, hname⟩] at hentry
    exact h.id_old name entry hentry

/-- An id whose own file was not read before has been entered before that file. -/
theorem mem_keys_before (h : Rewritten base names old new) {before : List String} {id : String}
    (hbegins : before ++ [storedName id] <+: names)
    (hid : id ∈ (base.enter (names.filterMap old)).keys) (hold : old (storedName id) = none) :
    id ∈ (base.enter (before.filterMap old)).keys := by
  rw [Ledger.mem_keys_enter] at hid ⊢
  refine hid.imp_right fun hentry => ?_
  obtain ⟨entry, hread, rfl⟩ := List.mem_map.1 hentry
  obtain ⟨name, hname, hread⟩ := List.mem_filterMap.1 hread
  rw [h.id_old name entry hread] at hbegins hold
  have hearlier : name < storedName (idOf name) := by
    refine (storedName_idOf (h.suffix name hname)).resolve_left fun heq => ?_
    rw [← heq, hread] at hold
    cases hold
  have hbefore : name ∈ before := by
    obtain ⟨after, rfl⟩ := hbegins
    have hsorted := h.sorted.pairwise
    rw [List.append_assoc, List.pairwise_append, List.singleton_append,
      List.pairwise_cons] at hsorted
    simp only [List.mem_append, List.mem_singleton] at hname
    rcases hname with (hname | heq) | hname
    · exact hname
    · exact absurd heq hearlier.ne
    · exact absurd hearlier (hsorted.2.1.1 name hname).asymm
  exact List.mem_map.2 ⟨entry, List.mem_filterMap.2 ⟨name, hbefore, hread⟩, rfl⟩

/-- As far as the files have been read, the same ids are there in the same order. -/
theorem keys_eq (h : Rewritten base names old new) {before : List String}
    (hbegins : before <+: names) :
    (base.enter (before.filterMap new)).keys = (base.enter (before.filterMap old)).keys := by
  induction before using List.reverseRecOn with
  | nil => rfl
  | append_singleton before name ih =>
    have hkeys := ih ((List.prefix_append before [name]).trans hbegins)
    have hname : name ∈ names :=
      hbegins.subset (List.mem_append_right _ (List.mem_singleton_self name))
    rw [List.filterMap_append, List.filterMap_append, Ledger.enter_append, Ledger.enter_append]
    by_cases hwritten : ∃ id ∈ (base.enter (names.filterMap old)).keys, name = storedName id
    · obtain ⟨id, hid, rfl⟩ := hwritten
      obtain ⟨graph, hgraph⟩ := Ledger.mem_keys_iff.1 hid
      have hnew := (h.written id graph hgraph).2
      cases hold : old (storedName id) with
      | some entry =>
        have hentry := h.id_old _ _ hold
        rw [idOf_storedName (h.named id hid)] at hentry
        refine Ledger.keys_enter_congr hkeys ?_
        simp [hnew, hold, Entries.keys, hentry]
      | none =>
        have hmem := h.mem_keys_before hbegins hid hold
        rw [← hkeys] at hmem
        simp only [List.filterMap_cons, List.filterMap_nil, hnew, hold, Ledger.enter]
        rw [Ledger.keys_insert, if_pos hmem, hkeys]
    · rw [List.filterMap_cons, List.filterMap_cons,
        h.kept name hname fun id hid hname => hwritten ⟨id, hid, hname⟩]
      exact Ledger.keys_enter_congr hkeys rfl

/-- The same graphs are entered again, in the same order. -/
theorem enter_eq (h : Rewritten base names old new) :
    base.enter (names.filterMap new) = base.enter (names.filterMap old) := by
  have hkeys := h.keys_eq List.prefix_rfl
  refine Ledger.eq_of_keys_eq hkeys fun id hid => ?_
  rw [hkeys] at hid
  obtain ⟨graph, hgraph⟩ := Ledger.mem_keys_iff.1 hid
  obtain ⟨hname, hnew⟩ := h.written id graph hgraph
  obtain ⟨before, after, hsplit⟩ := List.append_of_mem hname
  have hread :
      names.filterMap new = before.filterMap new ++ (id, graph) :: after.filterMap new := by
    rw [hsplit, List.filterMap_append, List.filterMap_cons, hnew]
  -- every file that is read later has a name behind that of the id, so it is not the file of this
  -- id
  have hlater : id ∉ Entries.keys (after.filterMap new) := by
    intro hmem
    obtain ⟨entry, hentry, rfl⟩ := List.mem_map.1 hmem
    obtain ⟨name, hafter, hentry⟩ := List.mem_filterMap.1 hentry
    have hname' : name ∈ names := hsplit ▸ List.mem_append_right _ (List.mem_cons_of_mem _ hafter)
    have hsorted := h.sorted.pairwise
    rw [hsplit, List.pairwise_append, List.pairwise_cons] at hsorted
    have hbehind := hsorted.2.1.1 name hafter
    rw [h.id_new hname' hentry] at hbehind
    rcases storedName_idOf (h.suffix name hname') with heq | hlt
    · exact absurd heq.symm hbehind.ne
    · exact absurd hlt hbehind.asymm
  rw [hread, Ledger.enter_append, hgraph]
  show (((base.enter (before.filterMap new)).insert id graph).enter
    (after.filterMap new)).get? id = some graph
  rw [Ledger.get?_enter_of_not_mem _ hlater, Ledger.get?_insert_self]

end Rewritten

end Colloquy.Library
