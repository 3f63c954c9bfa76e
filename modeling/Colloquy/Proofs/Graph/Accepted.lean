import Colloquy.Proofs.Graph.RoundTrip
import Colloquy.Proofs.Json.Admitted

/-!
# Graphs that are loaded can be stored

The schema admits neither a node without a tag nor a command without a name, so a graph that has
been read can be stored again.
-/

namespace Colloquy

open Files Json.Schema

/-! ## Fields of admitted data -/

variable {required : List String} {closed : Bool} {known : List (String × Json.Schema)}
    {data : Json}
  {name : String}

theorem textAt_ne_empty (h : (Json.Schema.object required closed known).Admits data)
    (hname : name ∈ required) (hknown : (name, .text true) ∈ known) : data.textAt name ≠ "" := by
  obtain ⟨value, hvalue, hadmits⟩ := exists_get?_of_admits h hname hknown
  rw [Admits] at hadmits
  obtain ⟨s, rfl, hs⟩ := hadmits
  rw [Json.textAt, hvalue]
  exact hs rfl

theorem admits_of_mem_itemsAt {item : Json.Schema}
    (h : (Json.Schema.object required closed known).Admits data) (hname : name ∈ required)
    (hknown : (name, .array item) ∈ known) {value : Json} (hvalue : value ∈ data.itemsAt name) :
    item.Admits value := by
  obtain ⟨found, hfound, hadmits⟩ := exists_get?_of_admits h hname hknown
  rw [Admits] at hadmits
  obtain ⟨items, rfl, hitems⟩ := hadmits
  rw [Json.itemsAt, hfound] at hvalue
  exact hitems value hvalue

/-! ## Nodes and graphs -/

theorem storable_node_of_admits (h : nodeSchema.Admits data) : (Node.ofJson data).Storable where
  tag := textAt_ne_empty h (by simp) (by simp)
  commands command hcommand := by
    obtain ⟨item, hitem, rfl⟩ := List.mem_map.1 hcommand
    have hadmits : commandSchema.Admits item := admits_of_mem_itemsAt h (by simp) (by simp) hitem
    exact textAt_ne_empty hadmits (by simp) (by simp)

theorem ofNodes_eq_ok {nodes : List Node} {graph : Graph} (h : Graph.ofNodes nodes = .ok graph) :
    graph.nodes = nodes := by
  unfold Graph.ofNodes at h
  split at h
  · cases h
  · cases h
    rfl

/-- A graph that data stands for can be stored. -/
theorem storable_of_ofJson {graph : Graph} (h : Graph.ofJson data = .ok graph) :
    graph.Storable := by
  unfold Graph.ofJson at h
  split at h
  · cases h
  next hcheck =>
  split at h
  · cases h
  next found hnodes =>
  cases h
  intro node hnode
  rw [ofNodes_eq_ok hnodes] at hnode
  obtain ⟨item, hitem, rfl⟩ := List.mem_map.1 hnode
  exact storable_node_of_admits
    (admits_of_mem_itemsAt (check_eq_ok_iff.1 hcheck) (by simp) (by simp) hitem)

/-- A graph that has been loaded from a file can be stored. -/
theorem storable_of_load {tree : Tree} {path : Path} {graph : Graph}
    (h : Graph.load tree path = .ok graph) :
    graph.Storable := by
  unfold Graph.load at h
  split at h
  · cases h
  next data _ =>
  split at h
  · cases h
  next found hgraph =>
  cases h
  exact storable_of_ofJson hgraph

end Colloquy
