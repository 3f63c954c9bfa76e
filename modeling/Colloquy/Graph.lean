import Colloquy.Node
import Colloquy.Chars.Quoted

/-!
# Graphs

A dialogue graph is a list of nodes with pairwise distinct tags. `Graph.ofNodes` makes a graph of
a list of nodes or names the first tag that occurs again; `Graph.push` adds a node with a new tag.
-/

namespace Colloquy

/-- A list of nodes in which no tag occurs twice. -/
structure Graph where
  nodes : List Node
  /-- No tag occurs twice. -/
  nodup : (nodes.map (·.tag)).Nodup
  deriving DecidableEq, Repr

/-- The tag that keeps a list of nodes from being a graph. -/
structure DuplicateTag where
  tag : String
  deriving DecidableEq, Repr

/-- The mistake in words. -/
def DuplicateTag.message (mistake : DuplicateTag) : String :=
  "Duplicate node tag: " ++ quote mistake.tag

namespace Graph

@[ext] theorem ext {g h : Graph} (equal : g.nodes = h.nodes) : g = h := by
  cases g
  cases h
  cases equal
  rfl

/-- The graph without nodes. -/
def empty : Graph := ⟨[], List.nodup_nil⟩

instance : Inhabited Graph := ⟨empty⟩

/-- The tags of the nodes. -/
def tags (graph : Graph) : List String :=
  graph.nodes.map (·.tag)

/-- The number of nodes. -/
def size (graph : Graph) : Nat :=
  graph.nodes.length

theorem size_pos {graph : Graph} (h : ¬ graph.nodes.isEmpty = true) : 0 < graph.size :=
  List.length_pos_iff.2 fun hnil => h (List.isEmpty_iff.2 hnil)

/-- Adds a node at the end. -/
def push (graph : Graph) (node : Node) (fresh : node.tag ∉ graph.tags) : Graph where
  nodes := graph.nodes ++ [node]
  nodup := by
    rw [List.map_append, List.nodup_append]
    refine ⟨graph.nodup, by simp, fun a ha b hb => ?_⟩
    simp only [List.map_cons, List.map_nil, List.mem_singleton] at hb
    rintro rfl
    exact fresh (hb ▸ ha)

/-! ## Graphs from lists of nodes -/

/-- The first of some tags that is among the tags before it or in `seen`. -/
def firstRepeated? (seen : List String) : List String → Option String
  | [] => none
  | tag :: tags => if tag ∈ seen then some tag else firstRepeated? (tag :: seen) tags

theorem nodup_of_firstRepeated?_eq_none {seen tags : List String}
    (h : firstRepeated? seen tags = none) : tags.Nodup ∧ ∀ tag ∈ tags, tag ∉ seen := by
  induction tags generalizing seen with
  | nil => simp
  | cons tag tags ih =>
    by_cases hmem : tag ∈ seen
    · simp [firstRepeated?, hmem] at h
    · rw [firstRepeated?, if_neg hmem] at h
      obtain ⟨distinct, apart⟩ := ih h
      refine ⟨List.nodup_cons.2 ⟨fun hin => apart tag hin (by simp), distinct⟩, ?_⟩
      intro t ht
      rcases List.mem_cons.1 ht with rfl | ht
      · exact hmem
      · exact fun hin => apart t ht (List.mem_cons_of_mem _ hin)

theorem firstRepeated?_eq_none {seen tags : List String} (distinct : tags.Nodup)
    (apart : ∀ tag ∈ tags, tag ∉ seen) : firstRepeated? seen tags = none := by
  induction tags generalizing seen with
  | nil => rfl
  | cons tag tags ih =>
    obtain ⟨hnew, distinct⟩ := List.nodup_cons.1 distinct
    rw [firstRepeated?, if_neg (apart tag (by simp))]
    refine ih distinct fun t ht => ?_
    rw [List.mem_cons, not_or]
    exact ⟨fun h => hnew (h ▸ ht), apart t (List.mem_cons_of_mem _ ht)⟩

/-- The graph of a list of nodes, or the first tag that occurs again. -/
def ofNodes (nodes : List Node) : Except DuplicateTag Graph :=
  match h : firstRepeated? [] (nodes.map (·.tag)) with
  | some tag => .error ⟨tag⟩
  | none => .ok ⟨nodes, (nodup_of_firstRepeated?_eq_none h).1⟩

/-- A graph is found again from its nodes. -/
theorem ofNodes_nodes (graph : Graph) : ofNodes graph.nodes = .ok graph := by
  have hnone : firstRepeated? [] (graph.nodes.map (·.tag)) = none :=
    firstRepeated?_eq_none graph.nodup (by simp)
  unfold ofNodes
  split
  · next tag hsome =>
    rw [hnone] at hsome
    cases hsome
  · rfl

/-! ## Looking nodes up -/

/-- The place of the node with a tag. -/
def indexOf? (graph : Graph) (tag : String) : Option Nat :=
  graph.nodes.findIdx? (·.tag == tag)

theorem lt_size_of_indexOf? {graph : Graph} {tag : String} {index : Nat}
    (h : graph.indexOf? tag = some index) : index < graph.size :=
  (List.findIdx?_eq_some_iff_findIdx_eq.1 h).1

/-- The node with a tag. -/
def nodeOf? (graph : Graph) (tag : String) : Option Node :=
  (graph.indexOf? tag).bind (graph.nodes[·]?)

/-- The node that a choice leads to. -/
def nodeOfChoice? (graph : Graph) (choice : Choice) : Option Node :=
  graph.nodeOf? choice.target

/-- The node at a place; negative places count from the end. -/
def at? (graph : Graph) (index : Int) : Option Node :=
  itemAt? graph.nodes index

/-- The end at which a graph without nodes was asked for one. -/
inductive Missing where
  | first
  | last
  deriving DecidableEq, Repr

/-- The mistake in words. -/
def Missing.message : Missing → String
  | .first => "first() on an empty dialogue graph"
  | .last => "last() on an empty dialogue graph"

/-- The first node. -/
def first (graph : Graph) : Except Missing Node :=
  match graph.nodes.head? with
  | some node => .ok node
  | none => .error .first

/-- The last node. -/
def last (graph : Graph) : Except Missing Node :=
  match graph.nodes.getLast? with
  | some node => .ok node
  | none => .error .last

/-- The tags that nodes point at and that no node has, each after the tag of the node that
points. -/
def unresolved (graph : Graph) : List (String × String) :=
  graph.nodes.flatMap fun node =>
    (node.targets.filter fun target => (graph.indexOf? target).isNone).map (node.tag, ·)

/-- A short description. -/
def summary (graph : Graph) : String :=
  s!"DialogueGraph({graph.size} nodes)"

end Graph

end Colloquy
