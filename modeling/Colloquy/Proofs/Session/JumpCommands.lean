import Colloquy.Proofs.Decimal.Written
import Colloquy.Proofs.Graph.Index
import Colloquy.Proofs.Script.CommandLines
import Colloquy.Proofs.Script.WellFormed
import Colloquy.Proofs.Session.Balance

/-!
# Tags in commands

A choice leads to the node with the tag on its target line, and any characters may stand in such a
tag. A command that jumps goes by the first word of its parameter. For a tag without blanks this
is the tag, and the command enters the same node as the choice, with one more jump under way. A
tag with blanks never is its own first word. So the command asks for another tag, and the node
cannot be reached by its line (`jump_by_first_word`).
-/

namespace Colloquy

open Chars

/-! ## Tags of scripts -/

namespace Script

theorem isTrimmed_numbered {front : List Char} (n : Nat) (hne : front ≠ [])
    (hfirst : ∀ c ∈ front.head?, isBlank c = false) : IsTrimmed (front ++ (Nat.repr n).toList) := by
  rw [Nat.toList_repr]
  refine isTrimmed_append hne (Decimal.natText_ne_nil n) hfirst fun c hc => ?_
  exact Decimal.isBlank_of_isNumeral (Json.isNumeral_of_mem_natText c (List.mem_of_getLast? hc))

/-- The tags of a script are neither empty nor do blanks stand around them. -/
theorem trimmed_of_mem_giveTags {settings : Settings} {text : String} :
    ∀ tag ∈ giveTags (ownTags settings (contents settings text)),
      tag ≠ "" ∧ IsTrimmed tag.toList := by
  apply forall_mem_giveTags
  · intro own hown tag htag
    obtain ⟨passage, hpassage, rfl⟩ := List.mem_map.mp hown
    obtain ⟨line, hline, rfl⟩ := exists_of_mem_tag tag htag
    have hmem := mem_countedLines_of_mem_contents (List.mem_of_mem_take hpassage) line hline
    have hpart := isPart_tagName (trim_ne_nil_of_counts (counts_of_mem_countedLines hmem))
    exact ⟨hpart.ne_empty, hpart.trimmed⟩
  · exact ⟨by decide, by decide⟩
  · intro n
    refine ⟨autoTag_ne_empty n, ?_⟩
    rw [autoTag, String.toList_append]
    exact isTrimmed_numbered n (by decide) (by decide : IsTrimmed "node_".toList).1
  · rintro base n ⟨hne, htrimmed⟩
    have hbase : base.toList ≠ [] := by simpa using hne
    refine ⟨numbered_ne_empty base n, ?_⟩
    rw [numbered, String.toList_append, String.toList_append]
    refine isTrimmed_numbered n (by simp [hbase]) ?_
    rw [List.head?_append_of_ne_nil _ hbase]
    exact htrimmed.1

theorem trimmed_tag {settings : Settings} {text : String} {node : Node}
    (hnode : node ∈ (compile settings text).graph.nodes) :
    node.tag ≠ "" ∧ IsTrimmed node.tag.toList := by
  rw [nodes_compile] at hnode
  obtain ⟨passage, -, tag, htag, rfl⟩ := exists_of_mem_nodesOf hnode
  exact trimmed_of_mem_giveTags tag htag

/-! ## Lines that jump -/

/-- The line with the command that jumps to a tag. -/
def jumpLine (tag : String) : Line :=
  "@jump ".toList ++ tag.toList

theorem commandOf_jumpLine {tag : String} (hne : tag ≠ "") (htrimmed : IsTrimmed tag.toList) :
    commandOf (jumpLine tag) = ⟨"jump", some tag⟩ := by
  have hword : IsWord "jump".toList := by decide
  have hgap : IsGap " ".toList := by decide
  have hnil : IsGap [] := by simp [IsGap]
  have hne' : tag.toList ≠ [] := by simpa using hne
  have hline := commandOf_line hnil hword hgap (by decide) hne' htrimmed hnil
  have hsplit : jumpLine tag = '@' :: ("jump".toList ++ (" ".toList ++ tag.toList)) := by
    simp [jumpLine]
  rw [List.nil_append, List.append_nil, ← hsplit, String.ofList_toList (s := tag)] at hline
  exact hline

end Script

namespace Session

variable {σ ε : Type} {host : Host σ ε} {staging : Staging} {world : World σ}

/-! ## Jumping for a command -/

/-- What a command does that goes to a tag while jumps are left. -/
def seek (host : Host σ ε) (staging : Staging) (tag : String) : Act σ ε Bool :=
  match staging.graph.indexOf? tag with
  | none => do missingTarget tag; return false
  | some place => asJump (enter host place)

theorem asJump_agree {count : Nat} {act other : Act σ ε Unit}
    (h : Act.AgreeAt (count + 1) act other) :
    Act.AgreeAt count (asJump act) (asJump other) := by
  intro world hcount
  let counted : World σ :=
    World.setSession world { world.rest.session with pending := world.rest.session.pending + 1 }
  have hsame : act.on counted = other.on counted := h counted (congrArg (· + 1) hcount)
  rw [asJump, asJump, Act.on_bind, Act.on_bind, Act.on_modifySession]
  dsimp only
  rw [Act.on_bind, Act.on_bind, Act.on_thenAlways, Act.on_thenAlways, hsame]

theorem jumpNow_on (hhost : host.Balanced) (hbound : world.rest.session.staging = some staging)
    (hpending : world.rest.session.pending < maxJumps) (tag : String) :
    (jumpNow host tag).on world = (seek host staging tag).on world := by
  unfold seek
  split
  · next hmissing => exact (jumpNow_tries host staging).miss hbound hmissing
  · next place hplace =>
    have hleft :
        maxJumps - world.rest.session.pending =
          maxJumps - (world.rest.session.pending + 1) + 1 := by omega
    rw [jumpNow, Act.on_bind, Act.on_session]
    dsimp only
    rw [hleft, commandJump, Act.on_bind, on_placeOf? hbound, hplace]
    exact asJump_agree (enterWith_commandJump hhost _ place false) world rfl

/-- A command with the name of a jump goes by the first word of its parameter. -/
theorem runCommand_jump (host : Host σ ε) (jump : String → Act σ ε Bool) {tag : String}
    {word : List Char} {rest : List (List Char)} (hwords : words tag.toList = word :: rest) :
    runCommand host jump ⟨"jump", some tag⟩ = jump (String.ofList word) := by
  have harguments :
      Command.arguments ⟨"jump", some tag⟩ = String.ofList word :: rest.map String.ofList := by
    rw [← String.ofList_toList (s := tag), Command.arguments_eq, hwords]
    rfl
  rw [runCommand, harguments]
  rfl

/-- Taking a choice enters the node that has its target as its tag. -/
theorem select_on {placed : Placed} {index place : Nat} {choice : Choice} {node : Node}
    (hbound : world.rest.session.staging = some staging)
    (hcurrent : world.rest.session.current = some placed)
    (hchoice : placed.node.choices[index]? = some choice)
    (hnode : staging.graph.nodes[place]? = some node) (htarget : choice.target = node.tag) :
    (select host index).on world = (enter host place).on world := by
  have hhas : placed.node.hasChoices = true := by
    have hne : placed.node.choices ≠ [] := List.ne_nil_of_mem (List.mem_of_getElem? hchoice)
    simpa [Node.hasChoices] using hne
  have hopen : world.rest.session.current.filter (·.node.hasChoices) = some placed := by
    rw [hcurrent, Option.filter_some, if_pos hhas]
  rw [select, Act.on_bind, Act.on_session]
  dsimp only
  rw [hopen]
  dsimp only
  rw [if_pos (by omega), Int.toNat_natCast, hchoice]
  dsimp only
  rw [Session.jump, Act.on_bind, on_bound hbound]
  dsimp only
  rw [htarget, Graph.indexOf?_tag hnode]

/-- If no blank stands in a tag, the command on the line that jumps to it enters the node, as a
jump. -/
theorem runCommand_jumpLine {place : Nat} {node : Node} (hhost : host.Balanced)
    (hbound : world.rest.session.staging = some staging)
    (hpending : world.rest.session.pending < maxJumps)
    (hnode : staging.graph.nodes[place]? = some node) (hne : node.tag ≠ "")
    (hunbroken : ∀ c ∈ node.tag.toList, isBlank c = false) :
    (runCommand host (jumpNow host) (Script.commandOf (Script.jumpLine node.tag))).on world =
      (asJump (enter host place)).on world := by
  have hword : IsWord node.tag.toList := ⟨by simpa using hne, hunbroken⟩
  rw [Script.commandOf_jumpLine hne hword.isTrimmed,
    runCommand_jump host (jumpNow host) (words_word hword), String.ofList_toList,
    jumpNow_on hhost hbound hpending, seek, Graph.indexOf?_tag hnode]

end Session

/-! ## Jumping by a line and by a choice -/

section Lines

open Script Session

variable {σ ε : Type} {host : Host σ ε} {world : World σ}

/-- A node of a script that is bound, and the two ways to go to its tag while jumps are left. A
choice with the tag as its target enters the node. The command on the line that jumps to the tag
enters it too, as a jump, if no blank stands in the tag. If one does, the command goes to the
first word of the tag, which is another tag and not found at the place of the node. -/
theorem jump_by_first_word {settings : Settings} {text : String} {staging : Staging}
    (hgraph : staging.graph = (compile settings text).graph) {place : Nat} {node : Node}
    (hnode : staging.graph.nodes[place]? = some node) (hhost : host.Balanced)
    (hbound : world.rest.session.staging = some staging)
    (hpending : world.rest.session.pending < maxJumps) :
    let jumped := (runCommand host (jumpNow host) (commandOf (jumpLine node.tag))).on world
    (∀ placed index choice, world.rest.session.current = some placed →
        placed.node.choices[index]? = some choice → choice.target = node.tag →
        (select host (index : Nat)).on world = (enter host place).on world) ∧
      ((∀ c ∈ node.tag.toList, isBlank c = false) → jumped = (asJump (enter host place)).on world) ∧
      ((∃ c ∈ node.tag.toList, isBlank c = true) → ∃ word rest,
        words node.tag.toList = word :: rest ∧
        String.ofList word ≠ node.tag ∧ staging.graph.indexOf? (String.ofList word) ≠ some place ∧
        jumped = (seek host staging (String.ofList word)).on world) := by
  intro jumped
  obtain ⟨hne, htrimmed⟩ := trimmed_tag (hgraph ▸ List.mem_of_getElem? hnode)
  refine ⟨fun placed index choice hcurrent hchoice => select_on hbound hcurrent hchoice hnode,
    runCommand_jumpLine hhost hbound hpending hnode hne, fun ⟨c, hc, hblank⟩ => ?_⟩
  · obtain ⟨word, rest, hword, hbreaks, hsplit⟩ := exists_word (by simpa using hne) htrimmed
    have hother : String.ofList word ≠ node.tag := by
      rintro hsame
      rw [← hsame, String.toList_ofList] at hc
      rw [hword.unbroken c hc] at hblank
      cases hblank
    have hwords : words node.tag.toList = word :: words rest := by
      rw [hsplit, words_word_append hword hbreaks]
    have hjumped : jumped = (seek host staging (String.ofList word)).on world := by
      rw [← jumpNow_on hhost hbound hpending, ← runCommand_jump host (jumpNow host) hwords,
        ← commandOf_jumpLine hne htrimmed]
    exact ⟨word, words rest, hwords, hother, fun hplace =>
      hother (Graph.tag_of_indexOf? hplace hnode).symm, hjumped⟩

/-- A node that is reached by a choice and by the line with its tag, and a node that is reached by
a choice only. -/
theorem jump_by_first_word_gates :
    let text := "Ann:\nGo?\n\tGate\n\t[gate]\n\tNorth\n\t[north gate]\n" ++
      "[gate]\nBob:\nOpen.\n[north gate]\nCid:\nShut.\n"
    let graph : Graph := ⟨[
      { tag := "start", speaker := "Ann", text := "Go?",
        choices := [⟨"Gate", "gate"⟩, ⟨"North", "north gate"⟩] },
      { tag := "gate", speaker := "Bob", text := "Open." },
      { tag := "north gate", speaker := "Cid", text := "Shut." }], by decide⟩
    let staging : Staging := .ofGraph graph
    let world : World (List (Notice × Store)) := { bus := {}, rest :=
      { session := { staging := some staging, current := staging.at? 0 }, host := [] } }
    let host := Host.recorder
    graph = (compile {} text).graph ∧
      (runCommand host (jumpNow host) (commandOf (jumpLine "gate"))).on world =
        (asJump (enter host 1)).on world ∧
      (select host 0).on world = (enter host 1).on world ∧
      (runCommand host (jumpNow host) (commandOf (jumpLine "north gate"))).on world =
        (seek host staging "north").on world ∧
      (select host 1).on world = (enter host 2).on world := by
  intro text graph staging world host
  have hgraph : staging.graph = (compile {} text).graph := by decide +kernel
  have hhost := Host.quiet_recorder.toAloof.balanced
  have hbound : world.rest.session.staging = some staging := rfl
  have hpending : world.rest.session.pending < maxJumps := by decide
  have hgate : staging.graph.nodes[1]? = some graph.nodes[1] := rfl
  have hnorth : staging.graph.nodes[2]? = some graph.nodes[2] := rfl
  obtain ⟨hselect, hjump, -⟩ := jump_by_first_word hgraph hgate hhost hbound hpending
  obtain ⟨hselect', -, hjump'⟩ := jump_by_first_word hgraph hnorth hhost hbound hpending
  obtain ⟨word, rest, hwords, -, -, hseek⟩ := hjump' ⟨' ', by decide, by decide⟩
  have hnorthward : words "north gate".toList = ["north".toList, "gate".toList] := by decide
  obtain ⟨rfl, -⟩ := List.cons.inj (hwords.symm.trans hnorthward)
  exact ⟨hgraph, hjump (by decide : IsWord "gate".toList).unbroken,
    hselect _ 0 _ rfl rfl rfl, hseek, hselect' _ 1 _ rfl rfl rfl⟩

/-- A node whose tag holds a blank. The command on the line with the tag leaves another node on
screen than the choice with the tag as its target. -/
theorem not_jump_as_choice :
    let graph : Graph := ⟨[
      { tag := "start", speaker := "Ann", text := "Where to?",
        choices := [⟨"Gate", "north gate"⟩] },
      { tag := "north gate", speaker := "Bob", text := "You made it." }], by decide⟩
    let world : World (List (Notice × Store)) :=
      { bus := {}, rest := { session := { staging := some (.ofGraph graph) }, host := [] } }
    let started := ((start Host.recorder).on world).2
    (compile {}
      "Ann:\nWhere to?\n\tGate\n\t[north gate]\n[north gate]\nBob:\nYou made it.\n").graph = graph ∧
      started.rest.session.current.isSome ∧ started.rest.session.pending < maxJumps ∧
      ((select Host.recorder 0).on started).2.rest.session.index = 1 ∧
      ((runCommand Host.recorder (jumpNow Host.recorder) (commandOf (jumpLine "north gate"))).on
        started).2.rest.session.index = 0 := by
  intro graph world started
  exact ⟨by decide +kernel, by decide +kernel, by decide +kernel, by decide +kernel,
    by decide +kernel⟩

end Lines

end Colloquy
