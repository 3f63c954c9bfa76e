import Colloquy.Proofs.Script.OwnTags
import Colloquy.Proofs.Session.JumpCommands

/-!
# Going to the tags that a script gives

A tag that a block has of its own is kept, unless it is reserved and an earlier node has got it. A
tag that is kept leads to the block: a choice with the tag as its target enters its node, and so
does the command on the line that jumps to the tag, if no blank stands in it
(`own_tag_kept_or_numbered`).
-/

namespace Colloquy

open Script Session

/-- Whatever names a tag goes to the node at a place of a graph. -/
structure Reaches (graph : Graph) (tag : String) (place : Nat) : Prop where
  /-- Taking a choice with the tag as its target enters the node. -/
  choice : ∀ {σ ε : Type} (host : Host σ ε) {world : World σ} {staging : Staging}
    {placed : Placed} {index : Nat} {choice : Choice},
      world.rest.session.staging = some staging → staging.graph = graph →
      world.rest.session.current = some placed → placed.node.choices[index]? = some choice →
      choice.target = tag →
        (select host index).on world = (enter host place).on world
  /-- The command on the line that jumps to the tag enters the node as a jump, while jumps are
  left. -/
  jump : (∀ c ∈ tag.toList, Chars.isBlank c = false) →
    ∀ {σ ε : Type} {host : Host σ ε} {world : World σ} {staging : Staging}, host.Balanced →
      world.rest.session.staging = some staging → staging.graph = graph →
      world.rest.session.pending < maxJumps →
        (runCommand host (jumpNow host) (commandOf (jumpLine tag))).on world =
          (asJump (enter host place)).on world

/-- The tag of a node reaches it. -/
theorem reaches_tag {graph : Graph} {place : Nat} {node : Node}
    (hnode : graph.nodes[place]? = some node) (hne : node.tag ≠ "") :
    Reaches graph node.tag place where
  choice host world staging placed index choice hbound hgraph hcurrent hchoice htarget := by
    subst hgraph
    exact select_on hbound hcurrent hchoice hnode htarget
  jump hunbroken σ ε host world staging hhost hbound hgraph hpending := by
    subst hgraph
    exact runCommand_jumpLine hhost hbound hpending hnode hne hunbroken

namespace Script

/-- Among different tags in a script, one that a node has of its own is kept, and then looking it
up finds that node, and a choice or a command that names it goes there; unless an earlier node
that the script does not give this tag has got it already. That happens to reserved tags only, and
the tag is then numbered, with a warning. -/
theorem own_tag_kept_or_numbered {settings : Settings} {text : String}
    (hdistinct : (tagNames settings text).Nodup) {i : Nat} {tag : String}
    (hown : (ownTags settings (contents settings text))[i]? = some (some tag)) :
    let owns := ownTags settings (contents settings text)
    let compiled := compile settings text
    let tags := compiled.graph.tags
    (tag ∉ tags.take i ∧ tags[i]? = some tag ∧ compiled.graph.indexOf? tag = some i ∧
        (∀ label, compiled.graph.nodeOfChoice? ⟨label, tag⟩ = compiled.graph.nodes[i]?) ∧
        Reaches compiled.graph tag i) ∨
      (Reserved tag ∧ (∃ j < i, tags[j]? = some tag ∧ owns[j]? ≠ some (some tag)) ∧
        ∃ number, LeastFree (tags.take i) tag number ∧ tags[i]? = some (numbered tag number) ∧
          (tag, numbered tag number) ∈ renamings compiled.warnings) := by
  intro owns compiled tags
  rcases kept_or_numbered hdistinct hown with ⟨hnew, hkept⟩ | hnumbered
  · obtain ⟨node, hnode, rfl⟩ : ∃ node, compiled.graph.nodes[i]? = some node ∧ node.tag = tag := by
      rw [Graph.tags, List.getElem?_map, Option.map_eq_some_iff] at hkept
      exact hkept
    have hfound : compiled.graph.indexOf? node.tag = some i := Graph.indexOf?_tag hnode
    refine .inl ⟨hnew, hkept, hfound, fun label => ?_, ?_⟩
    · rw [Graph.nodeOfChoice?, Graph.nodeOf?, hfound]
      rfl
    · exact reaches_tag hnode (trimmed_tag (List.mem_of_getElem? hnode)).1
  · exact .inr hnumbered

/-- One tag that is kept, to which a choice and a command lead, and a reserved one that the first
node has got before. -/
theorem own_tag_kept_or_numbered_inn :
    let text := "Ann:\nHi.\n\tInn\n\t[inn]\n[inn]\nBob:\nBye.\n[start]\nCid:\nYes.\n"
    let graph : Graph := ⟨[
      { tag := "start", speaker := "Ann", text := "Hi.", choices := [⟨"Inn", "inn"⟩] },
      { tag := "inn", speaker := "Bob", text := "Bye." },
      { tag := "start_1", speaker := "Cid", text := "Yes." }], by decide⟩
    let staging : Staging := .ofGraph graph
    let world : World (List (Notice × Store)) := { bus := {}, rest :=
      { session := { staging := some staging, current := staging.at? 0 }, host := [] } }
    let host := Host.recorder
    graph = (compile {} text).graph ∧ (tagNames {} text).Nodup ∧
      ((ownTags {} (contents {} text))[1]? = some (some "inn") ∧ graph.indexOf? "inn" = some 1 ∧
        (select host 0).on world = (enter host 1).on world ∧
        (runCommand host (jumpNow host) (commandOf (jumpLine "inn"))).on world =
          (asJump (enter host 1)).on world) ∧
      (ownTags {} (contents {} text))[2]? = some (some "start") ∧ Reserved "start" ∧
        ∃ number, LeastFree (graph.tags.take 2) "start" number ∧
          graph.tags[2]? = some (numbered "start" number) := by
  intro text graph staging world host
  have hgraph : graph = (compile {} text).graph := by decide +kernel
  have hdistinct : (tagNames {} text).Nodup := by decide +kernel
  have hinn : (ownTags {} (contents {} text))[1]? = some (some "inn") := by decide +kernel
  have hstart : (ownTags {} (contents {} text))[2]? = some (some "start") := by decide +kernel
  have hkept := own_tag_kept_or_numbered hdistinct hinn
  have hnumbered := own_tag_kept_or_numbered hdistinct hstart
  simp only [← hgraph] at hkept hnumbered
  refine ⟨hgraph, hdistinct, ⟨hinn, ?_⟩, hstart, ?_⟩
  · rcases hkept with ⟨-, -, hfound, -, hreaches⟩ | ⟨-, ⟨j, hj, h, -⟩, -⟩
    · have hhost := Host.quiet_recorder.toAloof.balanced
      have hpending : world.rest.session.pending < maxJumps := by decide
      exact ⟨hfound, hreaches.choice host rfl rfl rfl rfl rfl,
        hreaches.jump (by decide : Chars.IsWord "inn".toList).unbroken hhost rfl rfl hpending⟩
    · rw [Nat.lt_one_iff.mp hj] at h
      exact absurd h (by decide)
  · rcases hnumbered with ⟨hnew, -⟩ | ⟨hreserved, -, number, hleast, h, -⟩
    · exact absurd (show "start" ∈ graph.tags.take 2 by decide) hnew
    · exact ⟨hreserved, number, hleast, h⟩

/-- A reserved tag can be lost to a node without one, and then a choice that names the tag leads
to that node. -/
theorem own_tag_lost :
    let text := "Ann:\nHi.\n[start]\nBob:\nBye.\n  Again\n  [start]\n"
    let graph := (compile {} text).graph
    (tagNames {} text).Nodup ∧
      ownTags {} (contents {} text) = [none, some "start"] ∧
      graph.tags[1]? ≠ some "start" ∧ graph.tags = ["start", "start_1"] ∧
      graph.nodeOfChoice? ⟨"Again", "start"⟩ = graph.nodes[0]? ∧
      graph.nodes[0]? ≠ graph.nodes[1]? := by
  decide +kernel

end Script

end Colloquy
