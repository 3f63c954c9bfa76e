import Colloquy.Script.Settings
import Colloquy.Script.Tag
import Colloquy.Script.Warning

/-!
# Drafts

A draft is a graph in the making: the nodes that are complete, the block that is being read, and the
warnings so far. `Draft.read` takes in one line and `Draft.finish` closes the last block.

A block becomes a node when a line comes that cannot belong to it: a second speaker line, or,
after the speaker line, a tag line that follows the body. The body is the speech, the commands and
the choices.
-/

namespace Colloquy.Script

open Line (Kind)

/-- The parts of the next node that have been read. -/
structure Block where
  tag : Option String := none
  speaker : Option String := none
  speech : List String := []
  commands : List Command := []
  choices : List Choice := []
  /-- The label of a choice whose target has not been read. -/
  label : Option String := none
  deriving DecidableEq, Repr

/-- Whether there is anything but a tag and a speaker. -/
def Block.hasBody (block : Block) : Bool :=
  ! (block.speech.isEmpty && block.commands.isEmpty && block.choices.isEmpty)

/-- Whether the block makes a node. -/
def Block.hasContent (block : Block) : Bool :=
  block.speaker.isSome || block.hasBody

/-- A graph in the making. -/
structure Draft where
  graph : Graph := .empty
  /-- The tags that have been given to nodes. -/
  usedTags : List String := []
  /-- Every node has a tag that has been given. -/
  tag_used : ∀ tag ∈ graph.tags, tag ∈ usedTags := by decide
  /-- The number of tags that were made up for nodes after the first. -/
  autoTags : Nat := 0
  block : Block := {}
  /-- Whether the line before was a row of a choice list. -/
  inChoices : Bool := false
  warnings : List Warning := []

namespace Draft

/-- Reports a complaint about the line at a place. -/
def warn (draft : Draft) (place : Place) (complaint : Complaint) : Draft :=
  { draft with warnings := draft.warnings ++ [⟨place, complaint⟩] }

/-- Changes the block. -/
def withBlock (draft : Draft) (change : Block → Block) : Draft :=
  { draft with block := change draft.block }

/-! ## Parts of a line -/

/-- The tag on a line; a line without one stands for its whole content. -/
def takeTag (draft : Draft) (place : Place) (line : Line) : Draft × String :=
  match Line.tag? line with
  | some tag => (draft, tag)
  | none => (draft.warn place .tagMalformed, String.ofList (Chars.trim line))

/-- The speaker on a line; a line without one stands for its whole content. -/
def takeSpeaker (draft : Draft) (place : Place) (line : Line) : Draft × String :=
  match Line.speaker? line with
  | some speaker => (draft, speaker)
  | none => (draft.warn place .speakerMalformed, String.ofList (Chars.trim line))

/-- The content of a line, cut to the length that is allowed. -/
def takeText (settings : Settings) (draft : Draft) (place : Place) (line : Line) : Draft × String :=
  let content := Chars.trim line
  if settings.maxLineLength < content.length then
    (draft.warn place (.lineTooLong settings.maxLineLength),
      String.ofList (cutTo settings.maxLineLength content))
  else (draft, String.ofList content)

/-! ## Closing a block -/

/-- Drops a label that is still without a target. -/
def dropLabel (draft : Draft) (place : Place) : Draft :=
  match draft.block.label with
  | none => draft
  | some label =>
    (draft.warn place (.labelDropped label)).withBlock fun block => { block with label := none }

/-- The tag that the block asks for: its own one, or one that is made up. -/
def baseTag (draft : Draft) : String :=
  match draft.block.tag with
  | some tag => tag
  | none => if draft.graph.nodes.isEmpty then startTag else autoTag draft.autoTags

/-- The number of tags made up after the block has become a node. -/
def nextAutoTags (draft : Draft) : Nat :=
  if draft.block.tag.isNone && ! draft.graph.nodes.isEmpty then draft.autoTags + 1
  else draft.autoTags

/-- The tag that the block gets. -/
def finalTag (draft : Draft) : String :=
  freshTag draft.usedTags draft.baseTag

/-- The node that the block becomes. -/
def node (draft : Draft) : Node where
  tag := draft.finalTag
  speaker := draft.block.speaker.getD ""
  text := " ".intercalate draft.block.speech
  commands := draft.block.commands
  choices := draft.block.choices

theorem finalTag_not_mem (draft : Draft) : draft.node.tag ∉ draft.graph.tags :=
  fun h => freshTag_not_mem draft.usedTags draft.baseTag (draft.tag_used _ h)

theorem tag_used_push (draft : Draft) :
    ∀ tag ∈ (draft.graph.push draft.node draft.finalTag_not_mem).tags,
      tag ∈ draft.usedTags ++ [draft.finalTag] := by
  intro tag htag
  obtain ⟨node, hnode, rfl⟩ := List.mem_map.1 htag
  obtain hnode | hnode := List.mem_append.1 hnode
  · exact List.mem_append_left _ (draft.tag_used _ (List.mem_map_of_mem hnode))
  · exact List.mem_append_right _
      (by rw [List.mem_singleton.1 hnode]; exact List.mem_singleton_self _)

/-- Makes a node of the block, if there is room for it, and starts an empty block. -/
def commit (settings : Settings) (draft : Draft) (place : Place) : Draft :=
  let draft := draft.dropLabel place
  if isFull draft.graph.size settings.maxNodes then
    { draft.warn place (.nodesFull settings.maxNodes) with block := {} }
  else
    let warned :=
      if draft.finalTag = draft.baseTag then draft
      else draft.warn place (.tagTaken draft.baseTag draft.finalTag)
    { warned with
      graph := draft.graph.push draft.node draft.finalTag_not_mem
      usedTags := draft.usedTags ++ [draft.finalTag]
      tag_used := draft.tag_used_push
      autoTags := draft.nextAutoTags
      block := {} }

/-! ## Reading a line -/

/-- Adds a command. -/
def addCommand (settings : Settings) (draft : Draft) (place : Place) (line : Line) : Draft :=
  let (name, parameter) := Line.command line
  if name.isEmpty then draft.warn place .commandUnnamed
  else if isFull draft.block.commands.length settings.maxCommands then
    draft.warn place (.commandsFull settings.maxCommands name)
  else draft.withBlock fun block => { block with commands := block.commands ++ [⟨name, parameter⟩] }

/-- Gives the waiting label its target. -/
def addTarget (settings : Settings) (draft : Draft) (place : Place) (target : String) : Draft :=
  match draft.block.label with
  | none => draft.warn place (.targetUnlabelled target)
  | some label =>
    let draft := draft.withBlock fun block => { block with label := none }
    if isFull draft.block.choices.length settings.maxChoices then
      draft.warn place (.choicesFull settings.maxChoices label)
    else draft.withBlock fun block => { block with choices := block.choices ++ [⟨label, target⟩] }

/-- Lets a label wait for its target. -/
def addLabel (settings : Settings) (draft : Draft) (place : Place) (line : Line) : Draft :=
  let draft :=
    match draft.block.label with
    | none => draft
    | some label => draft.warn place (.labelReplaced label)
  let (draft, label) := takeText settings draft place line
  draft.withBlock fun block => { block with label := some label }

/-- Takes in a row of a choice list. -/
def readRow (settings : Settings) (draft : Draft) (place : Place) (line : Line) : Draft :=
  match Line.innerKind line with
  | .tag =>
    let (draft, target) := draft.takeTag place line
    draft.addTarget settings place target
  | .command => draft.warn place .commandInChoices
  | _ => draft.addLabel settings place line

/-- Takes in a line that is not a row of a choice list. -/
def readPlain (settings : Settings) (draft : Draft) (place : Place) (kind : Kind) (line : Line) :
    Draft :=
  match kind with
  | .speaker =>
    let draft := if draft.block.speaker.isSome then draft.commit settings place else draft
    let (draft, speaker) := draft.takeSpeaker place line
    draft.withBlock fun block => { block with speaker := some speaker }
  | .tag =>
    let draft :=
      if draft.block.speaker.isSome && draft.block.hasBody then draft.commit settings place
      else draft
    let (draft, tag) := draft.takeTag place line
    let draft :=
      match draft.block.tag with
      | none => draft
      | some old => draft.warn place (.tagReplaced old tag)
    draft.withBlock fun block => { block with tag := some tag }
  | .command => draft.addCommand settings place line
  | .speech =>
    let (draft, text) := takeText settings draft place line
    draft.withBlock fun block => { block with speech := block.speech ++ [text] }
  | _ => draft

/-- Takes in a line. -/
def read (settings : Settings) (draft : Draft) (place : Place) (line : Line) : Draft :=
  match Line.kind settings.minIndent line with
  | .blank => draft
  | .comment => draft
  | .choice => { draft with inChoices := true }.readRow settings place line
  | kind =>
    let draft := if draft.inChoices then draft.dropLabel place else draft
    { draft with inChoices := false }.readPlain settings place kind line

/-- Closes the last block. -/
def finish (settings : Settings) (draft : Draft) : Draft :=
  let draft := if draft.inChoices then draft.dropLabel {} else draft
  if draft.block.hasContent then draft.commit settings {}
  else
    match draft.block.tag with
    | none => draft
    | some tag => draft.warn {} (.tagUnused tag)

end Draft

end Colloquy.Script
