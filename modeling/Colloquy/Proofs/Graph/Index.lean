import Mathlib.Data.List.Nodup
import Colloquy.Graph
import Colloquy.Ledger

/-!
# Tags as an index

The tags of a graph are an index of its nodes: a tag stands for the place of the one node that has
it, and for no place if there is no such node. A list of nodes is a graph if and only if it can be
indexed. Otherwise there is a first node whose tag an earlier node has, and that tag is named
(`FirstRepeated`).

An index can also be kept beside the nodes, as a ledger in which they are entered one after the
other (`enterTags`). Entering gives up just when the nodes are no graph, with the same tag
(`enterTags_empty_eq_error_iff`). Otherwise the ledger and the graph find the same places
(`exists_enterTags`).

What a graph reports as unresolved is read off the index alone: of all that its nodes point at
(`Node.pointers`), that for which there is no place. The main statement is `index_inverts`.
-/

namespace Colloquy

/-- The tags that a node points at, each after its own tag: the targets of its choices, and then
the first arguments of its jumps. -/
def Node.pointers (node : Node) : List (String × String) :=
  node.choices.map (fun choice => (node.tag, choice.target)) ++
    node.commands.filterMap fun command =>
      if command.name = "jump" ∨ command.name = "jumpif" then
        command.arguments.head?.map fun target => (node.tag, target)
      else none

namespace Graph

variable {graph : Graph} {nodes : List Node} {node : Node} {tag : String} {place : Nat}

/-! ## Repeated tags -/

/-- The tag of the first node whose tag an earlier node has. -/
def FirstRepeated (nodes : List Node) (tag : String) : Prop :=
  ∃ before node after, nodes = before ++ node :: after ∧ node.tag = tag ∧ tag ∈ before.map (·.tag) ∧
    (before.map (·.tag)).Nodup

theorem firstRepeated?_eq_some_iff {seen tags : List String} (hseen : seen.Nodup) :
    firstRepeated? seen tags = some tag ↔
      ∃ before after, tags = before ++ tag :: after ∧ tag ∈ before.reverse ++ seen ∧
        (before.reverse ++ seen).Nodup := by
  induction tags generalizing seen with
  | nil => simp [firstRepeated?]
  | cons head tags ih =>
    by_cases hhead : head ∈ seen
    · rw [firstRepeated?, if_pos hhead, Option.some.injEq]
      constructor
      · rintro rfl
        exact ⟨[], tags, rfl, hhead, hseen⟩
      · rintro ⟨before, after, htags, -, hnodup⟩
        cases before with
        | nil => exact (List.cons.inj htags).1
        | cons first before =>
          obtain ⟨rfl, -⟩ := List.cons.inj htags
          exact absurd hhead (List.disjoint_of_nodup_append hnodup (by simp))
    · rw [firstRepeated?, if_neg hhead, ih (List.nodup_cons.2 ⟨hhead, hseen⟩)]
      -- What has been seen grows by the tag that the remaining ones lose.
      have hmove (before : List String) :
          (head :: before).reverse ++ seen = before.reverse ++ head :: seen := by
        simp
      constructor
      · rintro ⟨before, after, rfl, hrepeated, hnodup⟩
        exact ⟨head :: before, after, rfl, by rwa [hmove], by rwa [hmove]⟩
      · rintro ⟨before, after, htags, hrepeated, hnodup⟩
        cases before with
        | nil =>
          obtain ⟨rfl, -⟩ := List.cons.inj htags
          exact absurd hrepeated hhead
        | cons first before =>
          obtain ⟨rfl, rfl⟩ := List.cons.inj htags
          rw [hmove] at hrepeated hnodup
          exact ⟨before, after, rfl, hrepeated, hnodup⟩

theorem firstRepeated?_map_eq_some_iff :
    firstRepeated? [] (nodes.map (·.tag)) = some tag ↔ FirstRepeated nodes tag := by
  rw [firstRepeated?_eq_some_iff List.nodup_nil]
  constructor
  · rintro ⟨before, after, htags, hrepeated, hnodup⟩
    obtain ⟨first, rest, rfl, rfl, hrest⟩ := List.map_eq_append_iff.1 htags
    obtain ⟨node, last, rfl, hnode, -⟩ := List.map_eq_cons_iff.1 hrest
    exact ⟨first, node, last, rfl, hnode, by simpa using hrepeated, by simpa using hnodup⟩
  · rintro ⟨before, node, after, rfl, rfl, hrepeated, hnodup⟩
    exact ⟨before.map (·.tag), after.map (·.tag), by simp, by simpa using hrepeated,
      by simpa using hnodup⟩

/-- A list of nodes is a graph, or one of its tags is the first repeated one. -/
theorem ofNodes_cases (nodes : List Node) :
    (∃ tag, FirstRepeated nodes tag ∧ ofNodes nodes = .error ⟨tag⟩) ∨
      ∃ graph : Graph, graph.nodes = nodes ∧ ofNodes nodes = .ok graph := by
  unfold ofNodes
  split
  · next tag htag => exact .inl ⟨tag, firstRepeated?_map_eq_some_iff.1 htag, rfl⟩
  · exact .inr ⟨_, rfl, rfl⟩

/-- If a tag is repeated, two nodes share it. -/
theorem FirstRepeated.not_nodup (h : FirstRepeated nodes tag) : ¬ (nodes.map (·.tag)).Nodup := by
  obtain ⟨before, node, after, rfl, rfl, hmem, -⟩ := h
  rw [List.map_append, List.nodup_append]
  rintro ⟨-, -, hdisjoint⟩
  exact hdisjoint _ hmem _ (by simp) rfl

/-- Only one tag is the first repeated one. -/
theorem FirstRepeated.unique {other : String} (h : FirstRepeated nodes tag)
    (hother : FirstRepeated nodes other) :
    tag = other :=
  Option.some.inj
    ((firstRepeated?_map_eq_some_iff.2 h).symm.trans (firstRepeated?_map_eq_some_iff.2 hother))

/-! ## Places -/

theorem tag_of_indexOf? (h : graph.indexOf? tag = some place)
    (hnode : graph.nodes[place]? = some node) :
    node.tag = tag := by
  obtain ⟨hlt, htag, -⟩ := List.findIdx?_eq_some_iff_getElem.1 h
  obtain ⟨-, rfl⟩ := List.getElem?_eq_some_iff.1 hnode
  simpa using htag

/-- Every node is found by its tag, since no other node has it. -/
theorem indexOf?_tag (hnode : graph.nodes[place]? = some node) :
    graph.indexOf? node.tag = some place := by
  obtain ⟨hlt, rfl⟩ := List.getElem?_eq_some_iff.1 hnode
  refine List.findIdx?_eq_some_iff_getElem.2 ⟨hlt, by simp, fun earlier hearlier hsame => ?_⟩
  have htags := List.pairwise_iff_getElem.1 graph.nodup earlier place
    (by rw [List.length_map]; omega) (by rwa [List.length_map]) hearlier
  rw [List.getElem_map, List.getElem_map] at htags
  exact htags (by simpa using hsame)

theorem indexOf?_eq_some_iff :
    graph.indexOf? tag = some place ↔ ∃ node, graph.nodes[place]? = some node ∧ node.tag = tag := by
  constructor
  · intro hplace
    have hlt : place < graph.nodes.length := lt_size_of_indexOf? hplace
    exact ⟨_, List.getElem?_eq_getElem hlt, tag_of_indexOf? hplace (List.getElem?_eq_getElem hlt)⟩
  · rintro ⟨node, hnode, rfl⟩
    exact indexOf?_tag hnode

theorem indexOf?_eq_none_iff :
    graph.indexOf? tag = none ↔ ∀ node ∈ graph.nodes, node.tag ≠ tag := by
  rw [indexOf?, List.findIdx?_eq_none_iff]
  simp

theorem nodeOf?_eq_some_iff :
    graph.nodeOf? tag = some node ↔ ∃ place,
    graph.indexOf? tag = some place ∧ graph.nodes[place]? = some node :=
  Option.bind_eq_some_iff

theorem nodeOf?_eq_none_iff : graph.nodeOf? tag = none ↔ ∀ node ∈ graph.nodes, node.tag ≠ tag := by
  rw [← indexOf?_eq_none_iff, nodeOf?, Option.bind_eq_none_iff]
  constructor
  · intro hnone
    cases hplace : graph.indexOf? tag with
    | none => rfl
    | some place =>
      have hlt : place < graph.nodes.length := lt_size_of_indexOf? hplace
      exact absurd (List.getElem?_eq_getElem hlt) (by rw [hnone place hplace]; simp)
  · intro hnone place hplace
    rw [hnone] at hplace
    cases hplace

/-! ## An index beside the nodes -/

/-- Enters the tags of some nodes into an index, each with the place of its node; the first place
is given. Gives up at the first tag that is in the index already. -/
def enterTags (index : Ledger String Nat) (place : Nat) :
    List Node → Except DuplicateTag (Ledger String Nat)
  | [] => .ok index
  | node :: nodes =>
    if index.contains node.tag then .error ⟨node.tag⟩
    else enterTags (index.insert node.tag place) (place + 1) nodes

/-- Entering gives up at the first tag that has been seen, be it in the index or among the earlier
nodes. -/
theorem enterTags_eq_error_iff {index : Ledger String Nat} {seen : List String}
    (hseen : ∀ tag, index.contains tag = true ↔ tag ∈ seen) :
    enterTags index place nodes = .error ⟨tag⟩ ↔
      firstRepeated? seen (nodes.map (·.tag)) = some tag := by
  induction nodes generalizing index place seen with
  | nil => simp [enterTags, firstRepeated?]
  | cons node nodes ih =>
    rw [enterTags, List.map_cons, firstRepeated?]
    by_cases hmem : node.tag ∈ seen
    · rw [if_pos ((hseen _).2 hmem), if_pos hmem]
      simp
    · rw [if_neg fun h => hmem ((hseen _).1 h), if_neg hmem]
      refine ih fun other => ?_
      rw [Ledger.contains_insert, Bool.or_eq_true, beq_iff_eq, hseen, List.mem_cons]

/-- What is found in an index is what was in it before, or else the first place that was entered. -/
theorem get?_of_enterTags {index index' : Ledger String Nat}
    (h : enterTags index place nodes = .ok index') (tag : String) :
    index'.get? tag = (index.get? tag).or ((nodes.findIdx? (·.tag == tag)).map (place + ·)) := by
  induction nodes generalizing index place with
  | nil =>
    cases h
    simp
  | cons node nodes ih =>
    rw [enterTags] at h
    split at h
    · cases h
    · next hnew =>
      rw [ih h, List.findIdx?_cons]
      by_cases htag : node.tag = tag
      · have hnone : index.get? tag = none := by
          rw [← htag]
          simpa [Ledger.contains] using hnew
        rw [← htag, Ledger.get?_insert_self, htag, hnone]
        simp
      · rw [Ledger.get?_insert_of_ne _ (Ne.symm htag)]
        simp [htag, Function.comp_def, Nat.add_assoc, Nat.add_comm 1]

/-! ## Targets without a place -/

theorem pointers_eq (node : Node) :
    node.pointers = node.targets.map fun target => (node.tag, target) := by
  rw [Node.pointers, Node.targets, List.map_append, List.map_map, List.map_filterMap]
  refine congrArg (_ ++ ·) (List.filterMap_congr fun command _ => ?_)
  rw [Command.jumpTarget?]
  by_cases hjump : command.name = "jump" ∨ command.name = "jumpif" <;> simp [hjump]

/-- What is unresolved is what nodes point at and what has no place, in the order of the nodes. -/
theorem unresolved_eq (graph : Graph) :
    graph.unresolved =
      (graph.nodes.flatMap Node.pointers).filter fun pointer =>
        (graph.indexOf? pointer.2).isNone := by
  rw [unresolved, List.filter_flatMap]
  refine List.flatMap_congr fun node _ => ?_
  rw [pointers_eq, List.filter_map]
  rfl

/-! ## The index of a list of nodes -/

/-- A node is the one with a tag, and there is none if no node has the tag. -/
structure Answers (nodes : List Node) (tag : String) (node? : Option Node) : Prop where
  some_iff : ∀ node, node? = some node ↔ node ∈ nodes ∧ node.tag = tag
  none_iff : node? = none ↔ ∀ node ∈ nodes, node.tag ≠ tag

theorem answers_nodeOf? (graph : Graph) (tag : String) :
    Answers graph.nodes tag (graph.nodeOf? tag) where
  some_iff node := by
    rw [nodeOf?_eq_some_iff, List.mem_iff_getElem?]
    constructor
    · rintro ⟨place, hplace, hnode⟩
      exact ⟨⟨place, hnode⟩, tag_of_indexOf? hplace hnode⟩
    · rintro ⟨⟨place, hnode⟩, rfl⟩
      exact ⟨place, indexOf?_tag hnode, hnode⟩
  none_iff := nodeOf?_eq_none_iff

theorem ofNodes_eq_error_iff : ofNodes nodes = .error ⟨tag⟩ ↔ FirstRepeated nodes tag := by
  obtain ⟨first, hfirst, hnodes⟩ | ⟨graph, rfl, hnodes⟩ := ofNodes_cases nodes
  · rw [hnodes, Except.error.injEq, DuplicateTag.mk.injEq]
    constructor
    · rintro rfl
      exact hfirst
    · exact hfirst.unique
  · rw [hnodes]
    constructor
    · intro h
      cases h
    · intro h
      exact absurd graph.nodup h.not_nodup

/-- A list of nodes is no graph if and only if two of the nodes share a tag. -/
theorem exists_ofNodes_eq_error_iff :
    (∃ mistake, ofNodes nodes = .error mistake) ↔
      ∃ (first second : Nat) (one other : Node), first < second ∧ nodes[first]? = some one ∧
        nodes[second]? = some other ∧ one.tag = other.tag := by
  have hnodup : (∃ mistake, ofNodes nodes = .error mistake) ↔ ¬ (nodes.map (·.tag)).Nodup := by
    obtain ⟨tag, htag, hnodes⟩ | ⟨graph, rfl, hnodes⟩ := ofNodes_cases nodes
    · exact ⟨fun _ => htag.not_nodup, fun _ => ⟨_, hnodes⟩⟩
    · refine ⟨fun ⟨mistake, hmistake⟩ => ?_, fun h => absurd graph.nodup h⟩
      rw [hnodes] at hmistake
      cases hmistake
  rw [hnodup, List.Nodup, List.pairwise_map, List.pairwise_iff_getElem]
  constructor
  · intro h
    push Not at h
    obtain ⟨first, second, hfirst, hsecond, hlt, htags⟩ := h
    exact ⟨first, second, nodes[first], nodes[second], hlt, List.getElem?_eq_getElem hfirst,
      List.getElem?_eq_getElem hsecond, htags⟩
  · rintro ⟨first, second, one, other, hlt, hone, hother, htags⟩ h
    obtain ⟨hfirst, rfl⟩ := List.getElem?_eq_some_iff.1 hone
    obtain ⟨hsecond, rfl⟩ := List.getElem?_eq_some_iff.1 hother
    exact h first second hfirst hsecond hlt htags

theorem enterTags_empty_eq_error_iff :
    enterTags .empty 0 nodes = .error ⟨tag⟩ ↔ FirstRepeated nodes tag := by
  have hempty (tag : String) :
      (Ledger.empty : Ledger String Nat).contains tag = true ↔ tag ∈ [] := by
    simp [Ledger.contains, Ledger.get?, Ledger.empty, Entries.find?]
  rw [enterTags_eq_error_iff hempty, firstRepeated?_map_eq_some_iff]

/-- The ledger of a graph and the graph itself find the same places. -/
theorem exists_enterTags (graph : Graph) :
    ∃ index, enterTags .empty 0 graph.nodes = .ok index ∧ ∀ tag,
      index.get? tag = graph.indexOf? tag := by
  cases h : enterTags .empty 0 graph.nodes with
  | error mistake => exact absurd graph.nodup (enterTags_empty_eq_error_iff.1 h).not_nodup
  | ok index =>
    refine ⟨index, rfl, fun tag => ?_⟩
    rw [get?_of_enterTags h tag, indexOf?]
    simp [Ledger.get?, Ledger.empty, Entries.find?]

/-- The tags of a list of nodes are an index of it, or else the first repeated tag is named. This
holds of the ledger in which the tags are entered as of the graph, and all lookups and the list of
unresolved targets go by the index. -/
theorem index_inverts (nodes : List Node) :
    (∀ tag, ofNodes nodes = .error ⟨tag⟩ ↔ FirstRepeated nodes tag) ∧
    (∀ tag, enterTags .empty 0 nodes = .error ⟨tag⟩ ↔ FirstRepeated nodes tag) ∧
    ((∃ mistake, ofNodes nodes = .error mistake) ↔
      ∃ (first second : Nat) (one other : Node), first < second ∧ nodes[first]? = some one ∧
        nodes[second]? = some other ∧ one.tag = other.tag) ∧
    ∀ graph, ofNodes nodes = .ok graph →
      graph.nodes = nodes ∧
      (∃ index, enterTags .empty 0 nodes = .ok index ∧ ∀ tag, index.get? tag = graph.indexOf? tag) ∧
      (∀ tag place, graph.indexOf? tag = some place ↔ ∃ node,
        nodes[place]? = some node ∧ node.tag = tag) ∧
      (∀ tag, Answers nodes tag (graph.nodeOf? tag)) ∧
      (∀ choice, Answers nodes choice.target (graph.nodeOfChoice? choice)) ∧
      graph.unresolved =
        (nodes.flatMap Node.pointers).filter fun pointer => (graph.indexOf? pointer.2).isNone := by
  refine ⟨fun _ => ofNodes_eq_error_iff, fun _ => enterTags_empty_eq_error_iff,
    exists_ofNodes_eq_error_iff,
    fun graph hgraph => ?_⟩
  obtain ⟨tag, -, hnodes⟩ | ⟨made, rfl, hnodes⟩ := ofNodes_cases nodes
  · rw [hnodes] at hgraph
    cases hgraph
  · rw [hnodes] at hgraph
    cases hgraph
    exact ⟨rfl, exists_enterTags graph, fun _ _ => indexOf?_eq_some_iff, answers_nodeOf? graph,
      fun choice => answers_nodeOf? graph choice.target, unresolved_eq graph⟩

/-- Two nodes, of which the first asks twice for a tag that neither has. -/
def forkNodes : List Node :=
  [{ tag := "fork", commands :=
    [⟨"jumpif", some "lost poor"⟩, ⟨"jump", some "home"⟩, ⟨"play", some "lost"⟩]
     choices := [⟨"Left", "lost"⟩, ⟨"Right", "home"⟩] },
    { tag := "home", speaker := "Ana", text := "At last." }]

theorem index_inverts_fork :
    ∃ graph, ofNodes forkNodes = .ok graph ∧
      graph.indexOf? "home" = some 1 ∧ graph.nodeOf? "lost" = none ∧
      graph.unresolved = [("fork", "lost"), ("fork", "lost")] := by
  obtain ⟨graph, hgraph⟩ : ∃ graph, ofNodes forkNodes = .ok graph := ⟨_, rfl⟩
  obtain ⟨heq, -, hplaces, hnodes, -, hunresolved⟩ := (index_inverts forkNodes).2.2.2 graph hgraph
  have hhome : graph.indexOf? "home" = some 1 := (hplaces "home" 1).2 ⟨_, rfl, rfl⟩
  have hlost : graph.indexOf? "lost" = none := indexOf?_eq_none_iff.2 (by rw [heq]; decide)
  have hpointers : forkNodes.flatMap Node.pointers =
      [("fork", "lost"), ("fork", "home"), ("fork", "lost"), ("fork", "home")] := by decide
  refine ⟨graph, hgraph, hhome, (hnodes "lost").none_iff.2 (by decide), ?_⟩
  rw [hunresolved, hpointers]
  simp [hhome, hlost]

end Graph

end Colloquy
