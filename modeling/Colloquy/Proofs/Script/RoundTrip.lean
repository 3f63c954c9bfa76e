import Colloquy.Proofs.Script.Printed

/-!
# Reading back what was written

The script of a graph compiles to that graph, without a warning.

`Draft.Reaches` says how far a draft has come: which nodes are closed, what the block holds, and
that nothing has been reported. `Reads` says that some lines take every draft that has come to one
stage to another one. It is shown for each row of a node, and joined to the rows of a node and of
a graph.
-/

namespace Colloquy.Script

open Line (Kind)

/-! ## Stages -/

/-- How far the reading of a script has come. -/
structure Stage where
  /-- The nodes that are complete. -/
  closed : List Node := []
  block : Block := {}

/-- A draft has come to a stage, and there was nothing to report. -/
structure Draft.Reaches (stage : Stage) (draft : Draft) : Prop where
  nodes : draft.graph.nodes = stage.closed
  usedTags : draft.usedTags = draft.graph.tags
  block : draft.block = stage.block
  inChoices : draft.block.label.isSome → draft.inChoices
  warnings : draft.warnings = []

/-- The lines take every draft at one stage to another stage, wherever in a script they stand. -/
def Reads (settings : Settings) (start : Stage) (lines : List Line) (stop : Stage) : Prop :=
  ∀ (entries : List (Nat × Line)) (draft : Draft), entries.map (·.2) = lines →
    draft.Reaches start → (draft.readLines settings entries).Reaches stop

section Reads

variable {settings : Settings} {start middle stop : Stage} {line : Line} {lines more : List Line}

theorem Reads.nil (stage : Stage) : Reads settings stage [] stage := by
  intro entries draft hentries hdraft
  rw [List.map_eq_nil_iff.mp hentries]
  exact hdraft

theorem Reads.append (hfront : Reads settings start lines middle)
    (hback : Reads settings middle more stop) : Reads settings start (lines ++ more) stop := by
  intro entries draft hentries hdraft
  obtain ⟨front, back, rfl, hlines, hmore⟩ := List.map_eq_append_iff.mp hentries
  rw [Draft.readLines, List.foldl_append]
  exact hback back _ hmore (hfront front draft hlines hdraft)

/-- One line is read if the step over it is. -/
theorem Reads.single (hstep : ∀ (draft : Draft) (place : Place), draft.Reaches start →
    (draft.read settings place line).Reaches stop) : Reads settings start [line] stop := by
  intro entries draft hentries hdraft
  obtain ⟨entry, rfl, rfl⟩ := List.map_eq_singleton_iff.mp hentries
  exact hstep draft _ hdraft

end Reads

/-! ## Steps -/

section Steps

variable {settings : Settings} {closed : List Node} {block : Block} {draft : Draft} {place : Place}
  {line : Line}

theorem Block.add_label (hplain : settings.kind line ≠ .choice) :
    (block.add settings line).label = block.label := by
  unfold Block.add
  cases hkind : settings.kind line with
  | choice => exact absurd hkind hplain
  | command =>
    simp only [Block.addCommand]
    split <;> rfl
  | blank | comment | tag | speaker | speech => rfl

/-- A line about which there is nothing to report is added to the block. -/
theorem reaches_add {inChoices : Bool} (hdraft : draft.Reaches ⟨closed, block⟩)
    (hopen : (block.add settings line).label.isSome → inChoices)
    (hquiet : block.complaints settings line = []) :
    Draft.Reaches ⟨closed, block.add settings line⟩
      { draft.add settings place line with inChoices := inChoices } := by
  have hblock : (draft.add settings place line).block = block.add settings line := by
    rw [Draft.add_block, hdraft.block]
  have hwarnings : (draft.add settings place line).warnings = [] := by
    change draft.warnings ++ (draft.block.complaints settings line).map _ = []
    rw [hdraft.warnings, hdraft.block, hquiet]
    rfl
  exact ⟨hdraft.nodes, hdraft.usedTags, hblock, by rwa [hblock], hwarnings⟩

theorem not_isFull {count : Nat} {limit : Int} (h : count < limit.toNat) :
    isFull count limit = false := by
  simp only [isFull, decide_eq_false_iff_not]
  omega

/-- What a block holds when all rows of a node have been read. -/
def Block.ofNode (node : Node) : Block where
  tag := some node.tag
  speaker := some node.speaker
  speech := if node.text = "" then [] else [node.text]
  commands := node.commands
  choices := node.choices

/-- The block of a node becomes that node, if there is room for it and its tag is new. -/
theorem reaches_closeBlock {node : Node} (hdraft : draft.Reaches ⟨closed, Block.ofNode node⟩)
    (hroom : closed.length < settings.maxNodes.toNat) (hnew : node.tag ∉ closed.map (·.tag)) :
    (draft.closeBlock settings place).Reaches ⟨closed ++ [node], {}⟩ := by
  have hfull : isFull draft.graph.size settings.maxNodes = false := by
    rw [Graph.size, hdraft.nodes]
    exact not_isFull hroom
  have hbase : draft.baseTag = node.tag := by
    rw [Draft.baseTag, hdraft.block]
    rfl
  have hfinal : draft.finalTag = node.tag := by
    rw [Draft.finalTag, hbase, hdraft.usedTags, Graph.tags, hdraft.nodes, freshTag, if_neg hnew]
  have hnode : draft.node = node := by
    obtain ⟨tag, speaker, text, commands, choices⟩ := node
    rw [Draft.node, hfinal, hdraft.block]
    by_cases htext : text = "" <;> simp [Block.ofNode, htext]
  have hnames : draft.renameComplaints = [] := by
    rw [Draft.renameComplaints, hfinal, hbase, if_pos rfl]
  have hused :
      (draft.closeBlock settings place).usedTags = (draft.closeBlock settings place).graph.tags :=
    Draft.usedTags_closeBlock hdraft.usedTags
  rw [Draft.closeBlock, hfull] at hused ⊢
  refine ⟨?_, hused, rfl, by simp, ?_⟩
  · change draft.graph.nodes ++ [draft.node] = _
    rw [hdraft.nodes, hnode]
  · change draft.warnings ++ draft.renameComplaints.map _ = []
    rw [hdraft.warnings, hnames]
    rfl

/-- A line that is not a row of a choice list is added to a block that it does not end. -/
theorem reads_plain {kind : Kind} (hkind : settings.kind line = kind)
    (hkinds : kind ∉ [.blank, .comment, .choice]) (hlabel : block.label = none)
    (hstays : block.endsBefore settings line = false)
    (hquiet : block.complaints settings line = []) :
    Reads settings ⟨closed, block⟩ [line] ⟨closed, block.add settings line⟩ := by
  simp only [List.mem_cons, List.not_mem_nil, or_false, not_or] at hkinds
  obtain ⟨hblank, hcomment, hchoice⟩ := hkinds
  have hcounts : settings.counts line := counts_of_kind hkind hblank hcomment
  have hplain : settings.kind line ≠ .choice := by rwa [hkind]
  refine Reads.single fun draft place hdraft => ?_
  have hopen : draft.block.label = none := by rw [hdraft.block, hlabel]
  have hsame : draft.makeWay settings place line = draft := by
    rw [Draft.makeWay_of_plain hplain, hdraft.block, hstays, Draft.dropLabel_of_label hopen]
    rfl
  rw [Draft.read_eq hcounts hdraft.inChoices, hsame]
  exact reaches_add hdraft (by simp [Block.add_label hplain, hlabel]) hquiet

/-- A row of a choice list is added to every block. -/
theorem reads_choice (hchoice : settings.kind line = .choice)
    (hquiet : block.complaints settings line = []) :
    Reads settings ⟨closed, block⟩ [line] ⟨closed, block.add settings line⟩ := by
  refine Reads.single fun draft place hdraft => ?_
  rw [Draft.read_of_choice hchoice]
  exact reaches_add hdraft (fun _ => rfl) hquiet

end Steps

/-! ## Rows of a node -/

section Rows

variable {settings : Settings} {closed : List Node} {block : Block} {node : Node}

theorem speaker?_speakerRow (hnode : node.Writable settings) :
    Line.speaker? (node.speaker ++ ":").toList = some node.speaker := by
  rw [toList_speakerRow]
  exact speaker?_colon (isTrimmed_colon hnode.speaker_ne_empty hnode.speaker_trimmed)
    hnode.speaker_ne_empty hnode.speaker_trimmed

theorem tag?_tagRow (hnode : node.Writable settings) :
    Line.tag? ("[" ++ node.tag ++ "]").toList = some node.tag := by
  apply tag?_bracketed _ hnode.tag_ne_empty hnode.tag_trimmed hnode.tag_open
  rw [toList_tagRow, Chars.trim_of_isTrimmed (isTrimmed_bracketed _)]

theorem tag?_targetRow {choice : Choice} (hchoice : choice.Writable settings) :
    Line.tag? ("\t[" ++ choice.target ++ "]").toList = some choice.target := by
  apply tag?_bracketed _ hchoice.target_ne_empty hchoice.target_trimmed hchoice.target_open
  rw [toList_targetRow, trim_tab (isTrimmed_bracketed _)]

theorem add_speakerRow (hindent : 1 ≤ settings.minIndent) (hnode : node.Writable settings) :
    Block.add settings {} (node.speaker ++ ":").toList = { speaker := some node.speaker } := by
  simp only [Block.add, kind_speakerRow hindent hnode, speakerName, speaker?_speakerRow hnode,
    Option.getD_some]

theorem complaints_speakerRow (hindent : 1 ≤ settings.minIndent) (hnode : node.Writable settings) :
    Block.complaints settings {} (node.speaker ++ ":").toList = [] := by
  simp only [Block.complaints, kind_speakerRow hindent hnode, speakerComplaints,
    speaker?_speakerRow hnode]
  rfl

theorem reads_firstSpeakerRow (hindent : 1 ≤ settings.minIndent) (hnode : node.Writable settings) :
    Reads settings {} [(node.speaker ++ ":").toList] ⟨[], { speaker := some node.speaker }⟩ := by
  rw [← add_speakerRow hindent hnode]
  exact reads_plain (kind_speakerRow hindent hnode) (by decide) rfl rfl
    (complaints_speakerRow hindent hnode)

/-- The speaker of the next node closes the one before. -/
theorem reads_nextSpeakerRow {before : Node} (hindent : 1 ≤ settings.minIndent)
    (hnode : node.Writable settings) (hroom : closed.length < settings.maxNodes.toNat)
    (hnew : before.tag ∉ closed.map (·.tag)) :
    Reads settings ⟨closed, Block.ofNode before⟩ [(node.speaker ++ ":").toList]
      ⟨closed ++ [before], { speaker := some node.speaker }⟩ := by
  have hkind := kind_speakerRow hindent hnode
  have hadd := add_speakerRow hindent hnode
  refine Reads.single fun draft place hdraft => ?_
  have hopen : draft.block.label = none := by
    rw [hdraft.block]
    rfl
  have hends : draft.block.endsBefore settings (node.speaker ++ ":").toList = true := by
    rw [hdraft.block, Block.endsBefore, hkind]
    rfl
  have hplain : settings.kind (node.speaker ++ ":").toList ≠ .choice := by
    rw [hkind]
    decide
  rw [Draft.read_eq (isRow_speakerRow hindent hnode).counts hdraft.inChoices,
    Draft.makeWay_of_plain hplain, if_pos hends, Draft.dropLabel_of_label hopen, ← hadd]
  refine reaches_add (reaches_closeBlock hdraft hroom hnew) ?_ (complaints_speakerRow hindent hnode)
  rw [hadd]
  intro hlabel
  cases hlabel

theorem reads_tagRow (closed : List Node) (hindent : 1 ≤ settings.minIndent)
    (hnode : node.Writable settings) :
    Reads settings ⟨closed, { speaker := some node.speaker }⟩ [("[" ++ node.tag ++ "]").toList]
      ⟨closed, { speaker := some node.speaker, tag := some node.tag }⟩ := by
  have hkind := kind_tagRow hindent node.tag
  have htag := tag?_tagRow hnode
  have hadd : Block.add settings { speaker := some node.speaker } ("[" ++ node.tag ++ "]").toList =
      { speaker := some node.speaker, tag := some node.tag } := by
    simp only [Block.add, hkind, tagName_eq htag]
  rw [← hadd]
  apply reads_plain hkind (by decide) rfl
  · rw [Block.endsBefore, hkind]
    rfl
  · simp only [Block.complaints, hkind, tagComplaints_eq_nil htag]
    rfl

theorem endsBefore_of_kind {kind : Kind} {line : Line} (hkind : settings.kind line = kind)
    (hspeaker : kind ≠ .speaker) (htag : kind ≠ .tag) : block.endsBefore settings line = false := by
  simp [Block.endsBefore, hkind, hspeaker, htag]

theorem reads_textRow (closed : List Node) (block : Block) (hindent : 1 ≤ settings.minIndent)
    (hnode : node.Writable settings) (hlabel : block.label = none) (hspeech : block.speech = []) :
    Reads settings ⟨closed, block⟩ ((if node.text = "" then [] else [node.text]).map String.toList)
      ⟨closed, { block with speech := if node.text = "" then [] else [node.text] }⟩ := by
  by_cases htext : node.text = ""
  · -- a node that says nothing has no row for it
    have hsame : { block with speech := [] } = block := by rw [← hspeech]
    rw [if_pos htext, hsame]
    exact Reads.nil _
  · have hcontent := hnode.text_isContent htext
    have htrim := Chars.trim_of_isTrimmed hcontent.trimmed
    have hkind := kind_textRow hindent hnode htext
    have hadd : block.add settings node.text.toList = { block with speech := [node.text] } := by
      simp only [Block.add, hkind, hspeech, clip_eq htrim hcontent.length_le, List.nil_append]
    rw [if_neg htext, ← hadd]
    apply reads_plain hkind (by decide) hlabel (endsBefore_of_kind hkind (by decide) (by decide))
    simp only [Block.complaints, hkind, lengthComplaints_eq_nil htrim hcontent.length_le]

theorem reads_commandRow (closed : List Node) (block : Block) (hindent : 1 ≤ settings.minIndent)
    {command : Command} (hcommand : command.WellFormed) (hlabel : block.label = none)
    (hroom : block.commands.length < settings.maxCommands.toNat) :
    Reads settings ⟨closed, block⟩ [command.text.toList]
      ⟨closed, { block with commands := block.commands ++ [command] }⟩ := by
  have hkind := kind_commandRow hindent hcommand
  have hnamed : command.name.isEmpty = false := by simpa using hcommand.name_ne_empty
  have hadd : block.add settings command.text.toList =
      { block with commands := block.commands ++ [command] } := by
    simp only [Block.add, hkind, Block.addCommand, commandOf_text hcommand.legible, hnamed,
      not_isFull hroom]
    rfl
  rw [← hadd]
  apply reads_plain hkind (by decide) hlabel (endsBefore_of_kind hkind (by decide) (by decide))
  simp only [Block.complaints, hkind, Block.commandComplaints,
    commandOf_text hcommand.legible, hnamed, not_isFull hroom]
  rfl

theorem reads_commandRows (closed : List Node) (block : Block) (hindent : 1 ≤ settings.minIndent)
    {commands : List Command} (hcommands : ∀ command ∈ commands, command.WellFormed)
    (hlabel : block.label = none)
    (hroom : block.commands.length + commands.length ≤ settings.maxCommands.toNat) :
    Reads settings ⟨closed, block⟩ ((commands.map Command.text).map String.toList)
      ⟨closed, { block with commands := block.commands ++ commands }⟩ := by
  induction commands generalizing block with
  | nil =>
    rw [List.append_nil]
    exact Reads.nil _
  | cons command commands ih =>
    rw [List.forall_mem_cons] at hcommands
    rw [List.length_cons] at hroom
    have hfirst := reads_commandRow closed block hindent hcommands.1 hlabel (by omega)
    have hrest := ih { block with commands := block.commands ++ [command] } hcommands.2 hlabel
      (by rw [List.length_append, List.length_singleton]; omega)
    rw [List.append_assoc, List.singleton_append] at hrest
    exact hfirst.append hrest

/-- A label is open until its target comes. -/
theorem reads_labelRow (closed : List Node) (block : Block) {choice : Choice}
    (hchoice : choice.Writable settings) (hlabel : block.label = none) :
    Reads settings ⟨closed, block⟩ [("\t" ++ choice.text).toList]
      ⟨closed, { block with label := some choice.text }⟩ := by
  have hcontent := hchoice.text_isContent
  have hkind := kind_labelRow hchoice
  have htrim : Chars.trim ("\t" ++ choice.text).toList = choice.text.toList := by
    rw [toList_labelRow, trim_tab hcontent.trimmed]
  have hadd : block.add settings ("\t" ++ choice.text).toList =
      { block with label := some choice.text } := by
    rcases innerKind_labelRow hchoice with hinner | hinner <;>
      simp only [Block.add, hkind, Block.addRow, hinner, clip_eq htrim hcontent.length_le]
  rw [← hadd]
  apply reads_choice hkind
  rcases innerKind_labelRow hchoice with hinner | hinner <;>
    simp only [Block.complaints, hkind, Block.rowComplaints, hinner, hlabel,
      lengthComplaints_eq_nil htrim hcontent.length_le] <;> rfl

theorem reads_targetRow (closed : List Node) (block : Block) {choice : Choice}
    (hchoice : choice.Writable settings) (hlabel : block.label = some choice.text)
    (hroom : block.choices.length < settings.maxChoices.toNat) :
    Reads settings ⟨closed, block⟩ [("\t[" ++ choice.target ++ "]").toList]
      ⟨closed, { block with label := none, choices := block.choices ++ [choice] }⟩ := by
  have hkind := kind_targetRow settings choice.target
  have hinner := innerKind_targetRow choice.target
  have htag := tag?_targetRow hchoice
  have hadd : block.add settings ("\t[" ++ choice.target ++ "]").toList =
      { block with label := none, choices := block.choices ++ [choice] } := by
    simp only [Block.add, hkind, Block.addRow, hinner, Block.addTarget, hlabel, tagName_eq htag,
      not_isFull hroom]
    rfl
  rw [← hadd]
  apply reads_choice hkind
  simp only [Block.complaints, hkind, Block.rowComplaints, hinner, tagComplaints_eq_nil htag,
    Block.targetComplaints, hlabel, not_isFull hroom]
  rfl

theorem reads_choiceRows (closed : List Node) (block : Block) {choice : Choice}
    (hchoice : choice.Writable settings) (hlabel : block.label = none)
    (hroom : block.choices.length < settings.maxChoices.toNat) :
    Reads settings ⟨closed, block⟩ (choice.rows.map String.toList)
      ⟨closed, { block with choices := block.choices ++ [choice] }⟩ := by
  have hfirst := reads_labelRow closed block hchoice hlabel
  have hsecond := reads_targetRow closed { block with label := some choice.text } hchoice rfl hroom
  rw [← hlabel] at hsecond
  exact hfirst.append hsecond

theorem reads_choices (closed : List Node) (block : Block) {choices : List Choice}
    (hchoices : ∀ choice ∈ choices, choice.Writable settings) (hlabel : block.label = none)
    (hroom : block.choices.length + choices.length ≤ settings.maxChoices.toNat) :
    Reads settings ⟨closed, block⟩ ((choices.flatMap Choice.rows).map String.toList)
      ⟨closed, { block with choices := block.choices ++ choices }⟩ := by
  induction choices generalizing block with
  | nil =>
    rw [List.append_nil]
    exact Reads.nil _
  | cons choice choices ih =>
    rw [List.forall_mem_cons] at hchoices
    rw [List.length_cons] at hroom
    have hfirst := reads_choiceRows closed block hchoices.1 hlabel (by omega)
    have hrest := ih { block with choices := block.choices ++ [choice] } hchoices.2 hlabel
      (by rw [List.length_append, List.length_singleton]; omega)
    rw [List.append_assoc, List.singleton_append] at hrest
    rw [List.flatMap_cons, List.map_append]
    exact hfirst.append hrest

/-- The rows of a node fill the block with it, if the row of the speaker begins a new block. -/
theorem reads_rows {start : Stage} (hindent : 1 ≤ settings.minIndent)
    (hnode : node.Writable settings)
    (hspeaker : Reads settings start [(node.speaker ++ ":").toList]
      ⟨closed, { speaker := some node.speaker }⟩) :
    Reads settings start (node.rows.map String.toList) ⟨closed, Block.ofNode node⟩ := by
  have htag := reads_tagRow closed hindent hnode
  have htext := reads_textRow closed { speaker := some node.speaker, tag := some node.tag } hindent
    hnode rfl rfl
  have hcommands :=
    reads_commandRows closed { Block.ofNode node with commands := [], choices := [] }
    hindent hnode.commands rfl
    (by simpa using hnode.length_commands)
  have hchoices :=
    reads_choices closed { Block.ofNode node with choices := [] } hnode.choices_writable rfl
    (by simpa using hnode.length_choices)
  rw [Node.rows, List.map_append, List.map_append, List.map_append]
  exact (((hspeaker.append htag).append htext).append hcommands).append hchoices

end Rows

/-! ## Graphs -/

section Graphs

variable {settings : Settings} {closed : List Node} {node : Node} {graph : Graph} {draft : Draft}

theorem tag_not_mem_of_nodup {later : List Node}
    (hnodup : ((closed ++ node :: later).map (·.tag)).Nodup) : node.tag ∉ closed.map (·.tag) := by
  rw [List.map_append, List.nodup_append] at hnodup
  exact fun hmem => hnodup.2.2 _ hmem _ List.mem_cons_self rfl

/-- The rows of some nodes that follow another one close all but the last of them. -/
theorem reads_nodes (closed : List Node) {nodes : List Node} (hindent : 1 ≤ settings.minIndent)
    (hnodes : ∀ next ∈ nodes, next.Writable settings)
    (hroom : (closed ++ node :: nodes).length ≤ settings.maxNodes.toNat)
    (hnodup : ((closed ++ node :: nodes).map (·.tag)).Nodup) :
    ∃ earlier last, earlier ++ [last] = closed ++ node :: nodes ∧
      Reads settings ⟨closed, Block.ofNode node⟩ ((nodes.flatMap Node.rows).map String.toList)
        ⟨earlier, Block.ofNode last⟩ := by
  induction nodes generalizing closed node with
  | nil => exact ⟨closed, node, rfl, Reads.nil _⟩
  | cons next nodes ih =>
    rw [List.forall_mem_cons] at hnodes
    have hfirst := reads_nextSpeakerRow hindent hnodes.1
      (by rw [List.length_append, List.length_cons] at hroom; omega) (tag_not_mem_of_nodup hnodup)
    -- the next node takes the place of the one whose block is open
    have hshift : closed ++ node :: next :: nodes = (closed ++ [node]) ++ next :: nodes := by simp
    rw [hshift] at hroom hnodup ⊢
    obtain ⟨earlier, last, hall, hrest⟩ := ih (closed ++ [node]) hnodes.2 hroom hnodup
    refine ⟨earlier, last, hall, ?_⟩
    rw [List.flatMap_cons, List.map_append]
    exact (reads_rows hindent hnodes.1 hfirst).append hrest

/-- The end of a script makes a node of the last block. -/
theorem reaches_finish (hdraft : draft.Reaches ⟨closed, Block.ofNode node⟩)
    (hroom : closed.length < settings.maxNodes.toNat) (hnew : node.tag ∉ closed.map (·.tag)) :
    (draft.finish settings).Reaches ⟨closed ++ [node], {}⟩ := by
  have hopen : draft.block.label = none := by
    rw [hdraft.block]
    rfl
  have hcontent : draft.block.hasContent = true := by
    rw [hdraft.block]
    rfl
  rw [Draft.finish_eq hdraft.inChoices, Draft.dropLabel_of_label hopen, Draft.closeLast,
    if_pos hcontent]
  exact reaches_closeBlock hdraft hroom hnew

/-- The rows of some nodes leave behind the nodes, whatever lines that do not count stand among
them. -/
theorem reaches_of_rows {nodes : List Node} (hindent : 1 ≤ settings.minIndent)
    (hnodes : ∀ node ∈ nodes, node.Writable settings)
    (hroom : nodes.length ≤ settings.maxNodes.toNat)
    (hnodup : (nodes.map (·.tag)).Nodup) {entries : List (Nat × Line)}
    (hentries : (entries.map (·.2)).filter settings.counts =
      (nodes.flatMap Node.rows).map String.toList) :
    ((Draft.readLines settings {} entries).finish settings).Reaches ⟨nodes, {}⟩ := by
  have hstart : Draft.Reaches {} {} := ⟨rfl, rfl, rfl, by simp, rfl⟩
  rw [List.filter_map] at hentries
  rw [← Draft.readLines_filter]
  cases nodes with
  | nil =>
    have hnone : entries.filter (settings.counts ·.2) = [] := List.map_eq_nil_iff.mp hentries
    rw [hnone]
    exact hstart
  | cons node nodes =>
    rw [List.forall_mem_cons] at hnodes
    obtain ⟨earlier, last, hall, hrest⟩ := reads_nodes [] hindent hnodes.2 hroom hnodup
    have hfirst := reads_rows hindent hnodes.1 (reads_firstSpeakerRow hindent hnodes.1)
    rw [List.flatMap_cons, List.map_append] at hentries
    have hdraft := (hfirst.append hrest) _ {} hentries hstart
    rw [List.nil_append] at hall
    rw [← hall] at hroom hnodup ⊢
    apply reaches_finish hdraft _ (tag_not_mem_of_nodup hnodup)
    rw [List.length_append, List.length_singleton] at hroom
    omega

/-- A graph that a script can hold is compiled from its script, without a warning, whether or not
the last row ends in a line feed. -/
theorem compile_printed {text : String} (hindent : 1 ≤ settings.minIndent)
    (hgraph : graph.Writable settings)
    (htext : text = graph.printed ∨ text = graph.printed ++ "\n") :
    compile settings text = ⟨graph, []⟩ := by
  have hlines : ((numberedLines text).map (·.2)).filter settings.counts =
      (graph.nodes.flatMap Node.rows).map String.toList := by
    rw [map_snd_numberedLines]
    exact countedLines_printed hindent hgraph htext
  have hdraft := reaches_of_rows hindent hgraph.nodes hgraph.size_le graph.nodup hlines
  rw [← readAll_eq] at hdraft
  have hgraph' : ((readAll settings (numberedLines text)).finish settings).graph = graph :=
    Graph.ext hdraft.nodes
  have hwarnings : ((readAll settings (numberedLines text)).finish settings).warnings = [] :=
    hdraft.warnings
  rw [compile_eq]
  dsimp only
  rw [hgraph', hwarnings]

/-- A label may end with a colon and a speaker may stand in brackets. -/
theorem compile_printed_inn :
    let graph : Graph :=
      ⟨[{ tag := "door", speaker := "Ann", text := "Come in.",
          commands := [⟨"set", "met yes"⟩, ⟨"wait", none⟩], choices := [⟨"To the hall:", "hall"⟩] },
        { tag := "hall", speaker := "[voice]" }], by decide⟩
    (1 ≤ ({} : Settings).minIndent ∧ graph.Writable {}) ∧
      compile {} ("Ann:\n[door]\nCome in.\n@set met yes\n@wait\n\tTo the hall:\n\t[hall]\n" ++
        "[voice]:\n[hall]\n") = ⟨graph, []⟩ :=
  ⟨⟨by decide, by decide +kernel⟩,
    compile_printed (by decide) (by decide +kernel) (.inr (by decide))⟩

end Graphs

end Colloquy.Script
