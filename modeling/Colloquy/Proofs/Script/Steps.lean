import Colloquy.Proofs.Script.Passages

/-!
# One step of a draft

`Draft.read` takes in a line. This file says once what such a step can do. A line that counts is
taken in with three moves:

* a label without a target is dropped, unless the line is a row of the same choice list;
* the block becomes a node, if the line begins the next one;
* the line is added to the block, with the complaints that it gives rise to.

`Draft.makeWay` makes the first two moves and `Draft.add` the third one, and `read_eq` shows that
they are the step. `Block.add` and `Block.complaints` need to know the block only, not the draft
around it.
-/

namespace Colloquy.Script

open Line (Kind)

/-! ## Complaints about a part of a line -/

/-- What is wrong with the tag on a line. -/
def tagComplaints (line : Line) : List Complaint :=
  if (Line.tag? line).isSome then [] else [.tagMalformed]

/-- What is wrong with the speaker on a line. -/
def speakerComplaints (line : Line) : List Complaint :=
  if (Line.speaker? line).isSome then [] else [.speakerMalformed]

/-- What is wrong with the length of a line. -/
def lengthComplaints (settings : Settings) (line : Line) : List Complaint :=
  if settings.maxLineLength < (Chars.trim line).length then [.lineTooLong settings.maxLineLength]
  else []

/-! ## Clipped lines -/

/-- Cutting the content of a line clips it. -/
theorem ofList_cutTo (settings : Settings) (line : Line) :
    String.ofList (cutTo settings.maxLineLength (Chars.trim line)) = settings.clip line := by
  unfold cutTo Settings.clip
  cases settings.maxLineLength with
  | ofNat allowed => rfl
  | negSucc less => rfl

/-- A line that is not too long is left as it is. -/
theorem clip_eq_self {settings : Settings} {line : Line}
    (h : ¬ settings.maxLineLength < (Chars.trim line).length) :
    settings.clip line = String.ofList (Chars.trim line) := by
  unfold Settings.clip
  cases hlimit : settings.maxLineLength with
  | ofNat allowed =>
    rw [hlimit, Int.not_lt] at h
    have hlength : (Chars.trim line).length ≤ allowed := Int.ofNat_le.1 h
    exact congrArg String.ofList (List.take_of_length_le hlength)
  | negSucc less => omega

namespace Block

/-! ## Blocks -/

/-- The block without its open label. -/
def dropLabel (block : Block) : Block :=
  { block with label := none }

/-- What is wrong with a choice list that ends here. -/
def labelComplaints (block : Block) : List Complaint :=
  match block.label with
  | none => []
  | some label => [.labelDropped label]

/-- Whether a line begins the next block. -/
def endsBefore (settings : Settings) (block : Block) (line : Line) : Bool :=
  block.speaker.isSome &&
    (settings.kind line == .speaker || settings.kind line == .tag && block.hasBody)

/-- The block with a command, if there is room for it. -/
def addCommand (settings : Settings) (block : Block) (command : Command) : Block :=
  if command.name.isEmpty || isFull block.commands.length settings.maxCommands then block
  else { block with commands := block.commands ++ [command] }

/-- What is wrong with a command. -/
def commandComplaints (settings : Settings) (block : Block) (command : Command) : List Complaint :=
  if command.name.isEmpty then [.commandUnnamed]
  else if isFull block.commands.length settings.maxCommands then
    [.commandsFull settings.maxCommands command.name]
  else []

/-- The block with a target for its open label, if there is room for the choice. -/
def addTarget (settings : Settings) (block : Block) (target : String) : Block :=
  match block.label with
  | none => block
  | some label =>
    if isFull block.choices.length settings.maxChoices then block.dropLabel
    else { block.dropLabel with choices := block.choices ++ [⟨label, target⟩] }

/-- What is wrong with a target. -/
def targetComplaints (settings : Settings) (block : Block) (target : String) : List Complaint :=
  match block.label with
  | none => [.targetUnlabelled target]
  | some label =>
    if isFull block.choices.length settings.maxChoices then [.choicesFull settings.maxChoices label]
    else []

/-- The block with a row of a choice list. -/
def addRow (settings : Settings) (block : Block) (line : Line) : Block :=
  match Line.innerKind line with
  | .tag => block.addTarget settings (tagName line)
  | .command => block
  | _ => { block with label := some (settings.clip line) }

/-- What is wrong with a row of a choice list. -/
def rowComplaints (settings : Settings) (block : Block) (line : Line) : List Complaint :=
  match Line.innerKind line with
  | .tag => tagComplaints line ++ block.targetComplaints settings (tagName line)
  | .command => [.commandInChoices]
  | _ => (block.label.map Complaint.labelReplaced).toList ++ lengthComplaints settings line

/-- The block with a line that belongs to it. -/
def add (settings : Settings) (block : Block) (line : Line) : Block :=
  match settings.kind line with
  | .speaker => { block with speaker := some (speakerName line) }
  | .tag => { block with tag := some (tagName line) }
  | .command => block.addCommand settings (commandOf line)
  | .speech => { block with speech := block.speech ++ [settings.clip line] }
  | .choice => block.addRow settings line
  | _ => block

/-- What is wrong with a line that belongs to the block. -/
def complaints (settings : Settings) (block : Block) (line : Line) : List Complaint :=
  match settings.kind line with
  | .speaker => speakerComplaints line
  | .tag => tagComplaints line ++ (block.tag.map (Complaint.tagReplaced · (tagName line))).toList
  | .command => block.commandComplaints settings (commandOf line)
  | .speech => lengthComplaints settings line
  | .choice => block.rowComplaints settings line
  | _ => []

theorem endsBefore_of_choice {settings : Settings} {block : Block} {line : Line}
    (hchoice : settings.kind line = .choice) : block.endsBefore settings line = false := by
  simp [Block.endsBefore, hchoice]

/-- The block to which a line is added. -/
def before (settings : Settings) (block : Block) (line : Line) : Block :=
  if block.endsBefore settings line then {}
  else if settings.kind line = .choice then block
  else block.dropLabel

@[simp] theorem dropLabel_label (block : Block) : block.dropLabel.label = none := rfl

@[simp] theorem endsBefore_dropLabel (settings : Settings) (block : Block) (line : Line) :
    block.dropLabel.endsBefore settings line = block.endsBefore settings line := rfl

@[simp] theorem dropLabel_hasContent (block : Block) :
    block.dropLabel.hasContent = block.hasContent := rfl

/-- An open label matters to rows of a choice list only. -/
theorem complaints_dropLabel {settings : Settings} {line : Line}
    (hplain : settings.kind line ≠ .choice) (block : Block) :
    block.dropLabel.complaints settings line = block.complaints settings line := by
  unfold Block.complaints
  cases hkind : settings.kind line with
  | choice => exact absurd hkind hplain
  | blank | comment | tag | speaker | command | speech => rfl

theorem dropLabel_of_label {block : Block} (h : block.label = none) : block.dropLabel = block := by
  cases block
  cases h
  rfl

end Block

namespace Draft

variable {settings : Settings} {draft : Draft} {place : Place} {line : Line}

/-! ## Reports -/

/-- Reports some complaints about the line at a place. -/
def report (draft : Draft) (place : Place) (complaints : List Complaint) : Draft :=
  { draft with warnings := draft.warnings ++ complaints.map (⟨place, ·⟩) }

@[simp] theorem report_nil (draft : Draft) (place : Place) : draft.report place [] = draft := by
  simp [report]

@[simp] theorem report_block (complaints : List Complaint) :
    (draft.report place complaints).block = draft.block := rfl

@[simp] theorem report_warnings (complaints : List Complaint) :
    (draft.report place complaints).warnings =
      draft.warnings ++ complaints.map (⟨place, ·⟩) := rfl

theorem warn_eq_report (complaint : Complaint) :
    draft.warn place complaint = draft.report place [complaint] := rfl

theorem takeTag_eq :
    draft.takeTag place line = (draft.report place (tagComplaints line), tagName line) := by
  unfold takeTag tagComplaints tagName
  cases Line.tag? line <;> simp [warn_eq_report]

theorem takeSpeaker_eq :
    draft.takeSpeaker place line =
      (draft.report place (speakerComplaints line), speakerName line) := by
  unfold takeSpeaker speakerComplaints speakerName
  cases Line.speaker? line <;> simp [warn_eq_report]

theorem takeText_eq :
    takeText settings draft place line =
      (draft.report place (lengthComplaints settings line), settings.clip line) := by
  unfold takeText lengthComplaints
  by_cases h : settings.maxLineLength < (Chars.trim line).length
  · simp [h, warn_eq_report, ofList_cutTo]
  · simp [h, clip_eq_self h]

theorem dropLabel_eq :
    draft.dropLabel place =
      (draft.report place draft.block.labelComplaints).withBlock Block.dropLabel := by
  unfold dropLabel Block.labelComplaints
  cases h : draft.block.label with
  | none => simp [withBlock, Block.dropLabel_of_label h]
  | some label => rfl

@[simp] theorem dropLabel_block : (draft.dropLabel place).block = draft.block.dropLabel := by
  rw [dropLabel_eq]
  rfl

theorem dropLabel_graph : (draft.dropLabel place).graph = draft.graph := by
  rw [dropLabel_eq]
  rfl

theorem dropLabel_usedTags : (draft.dropLabel place).usedTags = draft.usedTags := by
  rw [dropLabel_eq]
  rfl

theorem dropLabel_autoTags : (draft.dropLabel place).autoTags = draft.autoTags := by
  rw [dropLabel_eq]
  rfl

theorem dropLabel_warnings :
    (draft.dropLabel place).warnings =
      draft.warnings ++ draft.block.labelComplaints.map (⟨place, ·⟩) := by
  rw [dropLabel_eq]
  rfl

theorem dropLabel_label : (draft.dropLabel place).block.label = none := by
  rw [dropLabel_block, Block.dropLabel_label]

/-! ## Closing a block -/

/-- What is wrong with the tag that the block asks for. -/
def renameComplaints (draft : Draft) : List Complaint :=
  if draft.finalTag = draft.baseTag then [] else [.tagTaken draft.baseTag draft.finalTag]

/-- What is wrong with a block that is closed. -/
def closeComplaints (settings : Settings) (draft : Draft) : List Complaint :=
  if isFull draft.graph.size settings.maxNodes then [.nodesFull settings.maxNodes]
  else draft.renameComplaints

/-- Drops the block if there are too many nodes, and makes a node of it otherwise. -/
def closeBlock (settings : Settings) (draft : Draft) (place : Place) : Draft :=
  if isFull draft.graph.size settings.maxNodes then
    { draft.report place [.nodesFull settings.maxNodes] with block := {} }
  else
    { draft.report place draft.renameComplaints with
      graph := draft.graph.push draft.node draft.finalTag_not_mem
      usedTags := draft.usedTags ++ [draft.finalTag]
      tag_used := draft.tag_used_push
      autoTags := draft.nextAutoTags
      block := {} }

@[simp] theorem closeBlock_block : (draft.closeBlock settings place).block = {} := by
  unfold closeBlock
  split <;> rfl

@[simp] theorem closeBlock_warnings :
    (draft.closeBlock settings place).warnings =
      draft.warnings ++ (draft.closeComplaints settings).map (⟨place, ·⟩) := by
  unfold closeBlock closeComplaints
  split <;> rfl

/-- A tag is used exactly if a node has it, and closing a block keeps it so. -/
theorem usedTags_closeBlock (h : draft.usedTags = draft.graph.tags) :
    (draft.closeBlock settings place).usedTags = (draft.closeBlock settings place).graph.tags := by
  unfold closeBlock
  split
  · exact h
  · show draft.usedTags ++ [draft.finalTag] = (draft.graph.nodes ++ [draft.node]).map (·.tag)
    rw [h, List.map_append]
    rfl

theorem commit_eq :
    draft.commit settings place = (draft.dropLabel place).closeBlock settings place := by
  have hclose : ∀ settled : Draft,
      (if isFull settled.graph.size settings.maxNodes then
        { settled.warn place (.nodesFull settings.maxNodes) with block := {} }
      else
        { (if settled.finalTag = settled.baseTag then settled
            else settled.warn place (.tagTaken settled.baseTag settled.finalTag)) with
          graph := settled.graph.push settled.node settled.finalTag_not_mem
          usedTags := settled.usedTags ++ [settled.finalTag]
          tag_used := settled.tag_used_push
          autoTags := settled.nextAutoTags
          block := {} }) = settled.closeBlock settings place := by
    intro settled
    unfold closeBlock renameComplaints
    by_cases hfull : isFull settled.graph.size settings.maxNodes
    · rw [if_pos hfull, if_pos hfull]
      rfl
    · rw [if_neg hfull, if_neg hfull]
      by_cases hkept : settled.finalTag = settled.baseTag
      · simp [hkept]
      · simp [hkept, warn_eq_report, report]
  exact hclose (draft.dropLabel place)

theorem dropLabel_of_label (hlabel : draft.block.label = none) : draft.dropLabel place = draft := by
  rw [dropLabel, hlabel]

/-- Whether the line before was a row of a choice list makes no difference to a block that is
closed. -/
theorem commit_inChoices (inChoices : Bool) (hlabel : draft.block.label = none) :
    commit settings { draft with inChoices := inChoices } place =
      { draft.commit settings place with inChoices := inChoices } := by
  rw [commit_eq, commit_eq, dropLabel_of_label hlabel, dropLabel_of_label (by exact hlabel)]
  unfold closeBlock
  by_cases hfull : isFull draft.graph.size settings.maxNodes
  · rw [if_pos hfull, if_pos hfull]
    rfl
  · rw [if_neg hfull, if_neg hfull]
    rfl

/-! ## The three moves -/

/-- What becomes of a draft before a line that counts is added to its block. -/
def makeWay (settings : Settings) (draft : Draft) (place : Place) (line : Line) : Draft :=
  let settled := if settings.kind line = .choice then draft else draft.dropLabel place
  if settled.block.endsBefore settings line then settled.closeBlock settings place else settled

theorem makeWay_of_choice (hchoice : settings.kind line = .choice) :
    draft.makeWay settings place line = draft := by
  rw [makeWay, if_pos hchoice, Block.endsBefore_of_choice hchoice]
  rfl

theorem makeWay_of_plain (hplain : settings.kind line ≠ .choice) :
    draft.makeWay settings place line =
      if draft.block.endsBefore settings line then
        (draft.dropLabel place).closeBlock settings place
      else draft.dropLabel place := by
  rw [makeWay, if_neg hplain]
  simp only [dropLabel_block, Block.endsBefore_dropLabel]

/-- Adds a line to the block. -/
def add (settings : Settings) (draft : Draft) (place : Place) (line : Line) : Draft :=
  (draft.report place (draft.block.complaints settings line)).withBlock (Block.add settings · line)

theorem add_block :
    (draft.add settings place line).block = draft.block.add settings line := rfl

theorem addCommand_eq :
    draft.addCommand settings place line =
      (draft.report place (draft.block.commandComplaints settings (commandOf line))).withBlock
        (Block.addCommand settings · (commandOf line)) := by
  unfold addCommand Block.commandComplaints Block.addCommand commandOf withBlock
  by_cases hname : (Line.command line).1.isEmpty
  · simp [hname, warn_eq_report, report]
  · by_cases hfull : isFull draft.block.commands.length settings.maxCommands
    · simp [hname, hfull, warn_eq_report, report]
    · simp [hname, hfull]

theorem addTarget_eq (target : String) :
    draft.addTarget settings place target =
      (draft.report place (draft.block.targetComplaints settings target)).withBlock
        (Block.addTarget settings · target) := by
  unfold addTarget Block.targetComplaints Block.addTarget withBlock
  cases hlabel : draft.block.label with
  | none => simp [hlabel, warn_eq_report, report]
  | some label =>
    by_cases hfull : isFull draft.block.choices.length settings.maxChoices
    · simp [hlabel, hfull, warn_eq_report, report, Block.dropLabel]
    · simp [hlabel, hfull, Block.dropLabel]

theorem report_report (first second : List Complaint) :
    (draft.report place first).report place second = draft.report place (first ++ second) := by
  simp [report]

theorem addLabel_eq :
    draft.addLabel settings place line =
      (draft.report place ((draft.block.label.map Complaint.labelReplaced).toList ++
        lengthComplaints settings line)).withBlock
          fun block => { block with label := some (settings.clip line) } := by
  unfold addLabel
  cases draft.block.label with
  | none => simp [takeText_eq]
  | some label => simp [takeText_eq, warn_eq_report, report_report]

theorem readRow_eq :
    draft.readRow settings place line =
      (draft.report place (draft.block.rowComplaints settings line)).withBlock
        (Block.addRow settings · line) := by
  unfold readRow Block.rowComplaints Block.addRow
  cases Line.innerKind line with
  | tag => simp [takeTag_eq, addTarget_eq, report_report]
  | command => rfl
  | blank | comment | speaker | choice | speech => exact addLabel_eq

/-- A row of a choice list is added at once. -/
theorem read_of_choice (hkind : settings.kind line = .choice) :
    draft.read settings place line = { draft.add settings place line with inChoices := true } := by
  unfold read add Block.complaints Block.add
  rw [Settings.kind] at hkind
  simp only [hkind, Settings.kind, readRow_eq]
  rfl

/-- Settling an open label is needed after a row of a choice list only. -/
theorem dropLabel_if (hopen : draft.block.label.isSome → draft.inChoices) :
    (if draft.inChoices then draft.dropLabel place else draft) = draft.dropLabel place := by
  by_cases hrow : draft.inChoices
  · rw [if_pos hrow]
  · have hnone : draft.block.label = none := by
      by_contra h
      exact hrow (hopen (Option.isSome_iff_ne_none.mpr h))
    rw [if_neg hrow, dropLabel, hnone]

/-- A line that is not a row of a choice list ends one. -/
theorem read_of_plain (hcounts : settings.counts line) (hplain : settings.kind line ≠ .choice) :
    draft.read settings place line =
      { (if draft.inChoices then draft.dropLabel place else draft) with
        inChoices := false }.readPlain settings place (settings.kind line) line := by
  unfold read
  cases hkind : settings.kind line <;> rw [Settings.kind] at hkind <;> simp only [hkind]
  · simp [Settings.counts, Settings.kind, hkind] at hcounts
  · simp [Settings.counts, Settings.kind, hkind] at hcounts
  · exact absurd hkind hplain

/-- What a step does with a line that is not a row of a choice list, after an open label was
dropped. -/
theorem readPlain_eq (hcounts : settings.counts line) (hplain : settings.kind line ≠ .choice) :
    draft.readPlain settings place (settings.kind line) line =
      (if draft.block.endsBefore settings line then draft.commit settings place else draft).add
        settings place line := by
  unfold readPlain add Block.endsBefore Block.complaints Block.add
  cases hkind : settings.kind line with
  | blank => simp [Settings.counts, hkind] at hcounts
  | comment => simp [Settings.counts, hkind] at hcounts
  | choice => exact absurd hkind hplain
  | speaker =>
    by_cases hspeaker : draft.block.speaker.isSome
    · simp [hspeaker, takeSpeaker_eq]
    · simp [hspeaker, takeSpeaker_eq]
  | tag =>
    have hends : (Kind.tag == Kind.speaker || Kind.tag == Kind.tag && draft.block.hasBody) =
        draft.block.hasBody := by simp
    rw [hends]
    simp only [takeTag_eq]
    generalize (if draft.block.speaker.isSome && draft.block.hasBody then
      draft.commit settings place else draft) = closed
    cases htag : closed.block.tag <;> simp [htag, warn_eq_report, report_report]
  | command => simp [addCommand_eq]
  | speech => simp [takeText_eq]

/-- A line that counts is taken in with the three moves. -/
theorem read_eq (hcounts : settings.counts line)
    (hopen : draft.block.label.isSome → draft.inChoices) :
    draft.read settings place line =
      { (draft.makeWay settings place line).add settings place line with
        inChoices := settings.kind line == .choice } := by
  by_cases hchoice : settings.kind line = .choice
  · rw [read_of_choice hchoice, makeWay, if_pos hchoice, hchoice]
    simp [Block.endsBefore, hchoice]
  · have hread : draft.read settings place line =
        { (draft.dropLabel place) with inChoices := false }.readPlain settings place
          (settings.kind line) line := by
      rw [read_of_plain hcounts hchoice, dropLabel_if hopen]
    have hrow : (settings.kind line == .choice) = false := by simp [hchoice]
    rw [hread, readPlain_eq hcounts hchoice, makeWay, if_neg hchoice, hrow]
    by_cases hends : (draft.dropLabel place).block.endsBefore settings line
    · rw [if_pos hends, if_pos hends, commit_inChoices _ dropLabel_label, commit_eq,
        dropLabel_of_label dropLabel_label]
      rfl
    · rw [if_neg hends, if_neg hends]
      rfl

/-- A line that does not count changes nothing. -/
theorem read_of_not_counts (h : settings.counts line = false) :
    draft.read settings place line = draft := by
  unfold read
  cases hkind : Line.kind settings.minIndent line <;> simp_all [Settings.counts, Settings.kind]

/-! ## What a step reports -/

/-- What is wrong when a line that counts comes: with a choice list that it ends, with a block
that it closes, and with the line itself. -/
def stepComplaints (settings : Settings) (draft : Draft) (line : Line) : List Complaint :=
  (if settings.kind line = .choice then [] else draft.block.labelComplaints) ++
    (if draft.block.endsBefore settings line then draft.closeComplaints settings else []) ++
    (draft.block.before settings line).complaints settings line

theorem makeWay_block :
    (draft.makeWay settings place line).block = draft.block.before settings line := by
  unfold Block.before
  by_cases hchoice : settings.kind line = .choice
  · rw [makeWay_of_choice hchoice, if_pos hchoice, Block.endsBefore_of_choice hchoice]
    rfl
  · rw [makeWay_of_plain hchoice, if_neg hchoice]
    split
    · exact closeBlock_block
    · exact dropLabel_block

theorem closeComplaints_dropLabel :
    (draft.dropLabel place).closeComplaints settings = draft.closeComplaints settings := by
  rw [dropLabel_eq]
  rfl

/-- A step adds its complaints to the warnings, and nothing else. -/
theorem read_warnings (hcounts : settings.counts line)
    (hopen : draft.block.label.isSome → draft.inChoices) :
    (draft.read settings place line).warnings =
      draft.warnings ++ (draft.stepComplaints settings line).map (⟨place, ·⟩) := by
  have hadd : (draft.read settings place line).warnings =
      (draft.makeWay settings place line).warnings ++
        ((draft.block.before settings line).complaints settings line).map (⟨place, ·⟩) := by
    have hblock : (draft.makeWay settings place line).block = draft.block.before settings line :=
      makeWay_block
    rw [read_eq hcounts hopen, ← hblock]
    rfl
  rw [hadd, stepComplaints, List.map_append, List.map_append, ← List.append_assoc]
  congr 1
  by_cases hchoice : settings.kind line = .choice
  · rw [makeWay_of_choice hchoice, if_pos hchoice, Block.endsBefore_of_choice hchoice]
    simp
  · rw [makeWay_of_plain hchoice, if_neg hchoice]
    split
    · rw [closeBlock_warnings, dropLabel_warnings, closeComplaints_dropLabel, List.append_assoc]
    · rw [dropLabel_warnings, List.map_nil, List.append_nil]

/-! ## The end of a script -/

/-- Closes the last block if it makes a node. Otherwise a tag that was read names nothing. -/
def closeLast (settings : Settings) (draft : Draft) : Draft :=
  if draft.block.hasContent then draft.closeBlock settings {}
  else draft.report {} (draft.block.tag.map Complaint.tagUnused).toList

theorem finish_eq (hopen : draft.block.label.isSome → draft.inChoices) :
    draft.finish settings = (draft.dropLabel {}).closeLast settings := by
  unfold finish closeLast
  rw [dropLabel_if hopen]
  dsimp only
  by_cases hcontent : (draft.dropLabel {}).block.hasContent
  · rw [if_pos hcontent, if_pos hcontent, commit_eq, dropLabel_of_label dropLabel_label]
  · rw [if_neg hcontent, if_neg hcontent]
    cases htag : (draft.dropLabel {}).block.tag <;> simp [warn_eq_report]

/-- What is wrong at the end of a script: with an open choice list, and with the last block or its
tag. -/
def lastComplaints (settings : Settings) (draft : Draft) : List Complaint :=
  draft.block.labelComplaints ++
    if draft.block.hasContent then draft.closeComplaints settings
    else (draft.block.tag.map Complaint.tagUnused).toList

theorem finish_warnings (hopen : draft.block.label.isSome → draft.inChoices) :
    (draft.finish settings).warnings =
      draft.warnings ++ (draft.lastComplaints settings).map (⟨{}, ·⟩) := by
  have hcontent : (draft.dropLabel {}).block.hasContent = draft.block.hasContent := by
    rw [dropLabel_block, Block.dropLabel_hasContent]
  rw [finish_eq hopen, closeLast, hcontent, lastComplaints, List.map_append, ← List.append_assoc]
  split
  · rw [closeBlock_warnings, dropLabel_warnings, closeComplaints_dropLabel]
  · rw [report_warnings, dropLabel_warnings, dropLabel_block]
    rfl

end Draft

end Colloquy.Script
