import Mathlib.Tactic.MkIffOfInductiveProp
import Colloquy.Proofs.Script.WellFormed

/-!
# Graphs as scripts

A graph is written as a script row by row: for each node the speaker, the tag, the text if there
is one, the commands, and two rows for each choice. `printed` is that script.

Not every graph can be written like this. `Graph.Writable` says which fields keep a row from being
taken for something else, or from losing a part of itself. The rest of the file says what the
compiler makes of each row of a graph like that: its kind, what is taken from it, and that nothing
is wrong with it.
-/

namespace Colloquy

open Script (Settings)

/-! ## Graphs that can be written -/

/-- A text that is marked neither as a comment nor as a command. -/
def Script.Unmarked (text : String) : Prop :=
  ∀ c ∈ text.toList.head?, c ≠ '#' ∧ c ≠ '@'

/-- A text that is the whole content of a row: trimmed, not too long, and neither marked as a
comment or a command nor bracketed like a tag. -/
@[mk_iff] structure Script.IsContent (settings : Settings) (text : String) : Prop where
  trimmed : Chars.IsTrimmed text.toList
  length_le : text.length ≤ settings.maxLineLength
  unmarked : Script.Unmarked text
  unbracketed : ¬ (text.toList.head? = some '[' ∧ text.toList.getLast? = some ']')

/-- A command that shows on its line where its name and its parameter end. The name may be empty. -/
structure Command.Legible (command : Command) : Prop where
  name_unbroken : ∀ c ∈ command.name.toList, Chars.isBlank c = false
  parameter_ne_empty : ∀ parameter ∈ command.parameter, parameter ≠ ""
  parameter_trimmed : ∀ parameter ∈ command.parameter, Chars.IsTrimmed parameter.toList

theorem Command.WellFormed.legible {command : Command} (h : command.WellFormed) : command.Legible :=
  ⟨h.name_unbroken, h.parameter_ne_empty, h.parameter_trimmed⟩

/-- A choice that two rows can hold. -/
@[mk_iff] structure Choice.Writable (settings : Settings) (choice : Choice) : Prop
    extends choice.WellFormed where
  text_ne_empty : choice.text ≠ ""
  text_isContent : Script.IsContent settings choice.text
  target_open : ']' ∉ choice.target.toList

/-- A node that rows can hold. -/
@[mk_iff] structure Node.Writable (settings : Settings) (node : Node) : Prop
    extends node.WellFormed settings where
  tag_trimmed : Chars.IsTrimmed node.tag.toList
  tag_open : ']' ∉ node.tag.toList
  speaker_ne_empty : node.speaker ≠ ""
  speaker_trimmed : Chars.IsTrimmed node.speaker.toList
  speaker_unmarked : Script.Unmarked node.speaker
  text_isContent : node.text ≠ "" → Script.IsContent settings node.text
  text_last : node.text.toList.getLast? ≠ some ':'
  choices_writable : ∀ choice ∈ node.choices, choice.Writable settings

/-- A graph that a script can hold. -/
@[mk_iff] structure Graph.Writable (settings : Settings) (graph : Graph) : Prop where
  size_le : graph.size ≤ settings.maxNodes.toNat
  nodes : ∀ node ∈ graph.nodes, node.Writable settings

attribute [mk_iff] Command.WellFormed Choice.WellFormed Node.WellFormed

-- For a property of characters the instance is named: the one for all characters would try every
-- one.
instance : DecidablePred Script.Unmarked := fun text => Option.decidableForallMem text.toList.head?

instance : DecidablePred Command.WellFormed := fun command =>
  have := List.decidableBAll (fun c => Chars.isBlank c = false) command.name.toList
  decidable_of_iff' _ (Command.wellFormed_iff command)

instance : DecidablePred Choice.WellFormed := fun _ => decidable_of_iff' _ (Choice.wellFormed_iff _)

instance (settings : Settings) : DecidablePred (Node.WellFormed settings) := fun _ =>
  decidable_of_iff' _ (Node.wellFormed_iff _ _)

instance (settings : Settings) : DecidablePred (Script.IsContent settings) := fun _ =>
  decidable_of_iff' _ (Script.isContent_iff _ _)

instance (settings : Settings) : DecidablePred (Choice.Writable settings) := fun _ =>
  decidable_of_iff' _ (Choice.writable_iff _ _)

instance (settings : Settings) : DecidablePred (Node.Writable settings) := fun _ =>
  decidable_of_iff' _ (Node.writable_iff _ _)

instance (settings : Settings) : DecidablePred (Graph.Writable settings) := fun _ =>
  decidable_of_iff' _ (Graph.writable_iff _ _)

/-! ## Rows -/

/-- The rows of a choice: its label, and below it its target. -/
def Choice.rows (choice : Choice) : List String :=
  ["\t" ++ choice.text, "\t[" ++ choice.target ++ "]"]

/-- The rows of a node. -/
def Node.rows (node : Node) : List String :=
  [node.speaker ++ ":", "[" ++ node.tag ++ "]"] ++
    (if node.text = "" then [] else [node.text]) ++
    node.commands.map Command.text ++
    node.choices.flatMap Choice.rows

/-- The script that shows a graph. -/
def Graph.printed (graph : Graph) : String :=
  "\n".intercalate (graph.nodes.flatMap Node.rows)

namespace Script

open Line (Kind)
open Chars (IsTrimmed)

/-! ## Contents -/

section Contents

variable {settings : Settings} {content : Line}

theorem contentKind_bracketed (name : List Char) :
    Line.contentKind ('[' :: (name ++ [']'])) = .tag := by
  simp [Line.contentKind]

theorem contentKind_ordered (rest : List Char) : Line.contentKind ('@' :: rest) = .command := by
  simp [Line.contentKind]

theorem contentKind_colon {name : List Char} (hne : name ≠ [])
    (hunmarked : ∀ c ∈ name.head?, c ≠ '#' ∧ c ≠ '@') :
    Line.contentKind (name ++ [':']) = .speaker := by
  cases name with
  | nil => exact absurd rfl hne
  | cons c name =>
    obtain ⟨hcomment, hcommand⟩ := hunmarked c rfl
    have hlast : (c :: (name ++ [':'])).getLast? = some ':' := List.getLast?_concat (l := c :: name)
    simp [Line.contentKind, hcomment, hcommand, hlast]

/-- A content that is neither marked nor bracketed is speech, or names a speaker. -/
theorem contentKind_plain (hne : content ≠ [])
    (hunmarked : ∀ c ∈ content.head?, c ≠ '#' ∧ c ≠ '@')
    (hunbracketed : ¬ (content.head? = some '[' ∧ content.getLast? = some ']')) :
    Line.contentKind content = if content.getLast? = some ':' then .speaker else .speech := by
  cases content with
  | nil => exact absurd rfl hne
  | cons c rest =>
    obtain ⟨hcomment, hcommand⟩ := hunmarked c rfl
    have hopen : ¬ (c = '[' ∧ rest.getLast? = some ']') := by
      rintro ⟨rfl, hlast⟩
      exact hunbracketed ⟨rfl, by simp [List.getLast?_cons, hlast]⟩
    simp only [Line.contentKind, Bool.and_eq_true, beq_iff_eq, hcomment, hopen, hcommand, if_false]

/-! ## Kinds -/

theorem kind_of_isTrimmed (hindent : 1 ≤ settings.minIndent) (htrimmed : IsTrimmed content) :
    settings.kind content = Line.contentKind content := by
  have hflush : Line.isIndented settings.minIndent content = false := by
    cases content with
    | nil => rfl
    | cons c rest =>
      have hfirst : Chars.isBlank c = false := htrimmed.1 c rfl
      have htab : c ≠ '\t' := by
        rintro rfl
        exact absurd hfirst (by decide)
      have hwidth : ¬ settings.minIndent ≤ 0 := by omega
      simp [Line.isIndented, htab, hfirst, hwidth]
  rw [Settings.kind, Line.kind, Chars.trim_of_isTrimmed htrimmed, hflush]
  cases Line.contentKind content <;> rfl

theorem trim_tab (htrimmed : IsTrimmed content) : Chars.trim ('\t' :: content) = content :=
  Chars.trim_cons_blank (by decide) htrimmed

theorem kind_tab (htrimmed : IsTrimmed content) (hblank : Line.contentKind content ≠ .blank)
    (hcomment : Line.contentKind content ≠ .comment) :
    settings.kind ('\t' :: content) = .choice := by
  have hindented : Line.isIndented settings.minIndent ('\t' :: content) = true := by
    simp [Line.isIndented]
  rw [Settings.kind, Line.kind, trim_tab htrimmed, hindented]
  cases hkind : Line.contentKind content with
  | blank => exact absurd hkind hblank
  | comment => exact absurd hkind hcomment
  | tag | speaker | command | choice | speech => rfl

theorem innerKind_tab (htrimmed : IsTrimmed content) :
    Line.innerKind ('\t' :: content) = Line.contentKind content := by
  rw [Line.innerKind, trim_tab htrimmed]

end Contents

/-! ## What is taken from a row -/

section Parts

variable {settings : Settings} {name text : String} {line : Line}

theorem nonEmpty?_toList (hne : name ≠ "") : Line.nonEmpty? name.toList = some name := by
  simp [Line.nonEmpty?, hne]

theorem tag?_bracketed (hline : Chars.trim line = '[' :: (name.toList ++ [']'])) (hne : name ≠ "")
    (htrimmed : IsTrimmed name.toList) (hopen : ']' ∉ name.toList) :
    Line.tag? line = some name := by
  have hinside : (name.toList ++ [']']).takeWhile (· != ']') = name.toList := by
    rw [List.takeWhile_append_of_pos]
    · simp
    · intro c hc
      have : c ≠ ']' := fun h => hopen (h ▸ hc)
      simpa using this
  have hopening :
      ('[' :: (name.toList ++ [']'])).dropWhile (· != '[') = '[' :: (name.toList ++ [']']) :=
    List.dropWhile_cons_of_neg (by simp)
  rw [Line.tag?, hline, hopening]
  simp only [hinside, Chars.trim_of_isTrimmed htrimmed, nonEmpty?_toList hne]
  simp

theorem speaker?_colon (hline : IsTrimmed (name.toList ++ [':'])) (hne : name ≠ "")
    (htrimmed : IsTrimmed name.toList) : Line.speaker? (name.toList ++ [':']) = some name := by
  simp [Line.speaker?, Chars.trim_of_isTrimmed hline, Chars.trim_of_isTrimmed htrimmed,
    nonEmpty?_toList hne]

theorem clip_eq (hline : Chars.trim line = text.toList)
    (hfits : text.length ≤ settings.maxLineLength) :
    settings.clip line = text := by
  have hlength : ¬ settings.maxLineLength < (Chars.trim line).length := by
    rw [hline, String.length_toList]
    omega
  rw [clip_eq_self hlength, hline, String.ofList_toList]

theorem lengthComplaints_eq_nil (hline : Chars.trim line = text.toList)
    (hfits : text.length ≤ settings.maxLineLength) : lengthComplaints settings line = [] := by
  rw [lengthComplaints, hline, String.length_toList, if_neg (by omega)]

theorem tagComplaints_eq_nil (htag : Line.tag? line = some name) : tagComplaints line = [] := by
  simp [tagComplaints, htag]

theorem tagName_eq (htag : Line.tag? line = some name) : tagName line = name := by
  simp [tagName, htag]

theorem isTrimmed_command {command : Command} (hcommand : command.Legible) :
    IsTrimmed command.text.toList := by
  have hmarker : Chars.isBlank '@' = false := by decide
  obtain ⟨name, parameter⟩ := command
  cases parameter with
  | none =>
    have htext : (Command.text ⟨name, none⟩).toList = '@' :: name.toList := by simp [Command.text]
    rw [htext]
    exact Chars.isTrimmed_of_forall (List.forall_mem_cons.2 ⟨hmarker, hcommand.name_unbroken⟩)
  | some parameter =>
    have htext : (Command.text ⟨name, some parameter⟩).toList =
        ('@' :: name.toList ++ [' ']) ++ parameter.toList := by
      simp [Command.text]
    rw [htext]
    apply Chars.isTrimmed_append (by simp)
      (by simpa using hcommand.parameter_ne_empty parameter rfl)
    · simpa using hmarker
    · exact (hcommand.parameter_trimmed parameter rfl).2

/-- A command is read back from the line that shows it. -/
theorem commandOf_text {command : Command} (hcommand : command.Legible) :
    commandOf command.text.toList = command := by
  have htrimmed : IsTrimmed command.text.toList := isTrimmed_command hcommand
  obtain ⟨name, parameter⟩ := command
  have hunbroken : ∀ c ∈ name.toList, (! Chars.isBlank c) = true := by
    intro c hc
    simpa using hcommand.name_unbroken c hc
  rw [commandOf, Line.command, Line.unmarked, Chars.trim_of_isTrimmed htrimmed]
  cases parameter with
  | none =>
    have hname : name.toList.takeWhile (! Chars.isBlank ·) = name.toList :=
      List.takeWhile_eq_self_iff.mpr hunbroken
    have hrest : name.toList.dropWhile (! Chars.isBlank ·) = [] :=
      List.dropWhile_eq_nil_iff.mpr hunbroken
    simp [Command.text, hname, hrest, Line.nonEmpty?]
  | some parameter =>
    have hspace : Chars.isBlank ' ' = true := by decide
    have hname : (name.toList ++ ' ' :: parameter.toList).takeWhile (! Chars.isBlank ·) =
        name.toList := by
      rw [List.takeWhile_append_of_pos hunbroken]
      simp [hspace]
    have hrest : (name.toList ++ ' ' :: parameter.toList).dropWhile (! Chars.isBlank ·) =
        ' ' :: parameter.toList := by
      rw [List.dropWhile_append_of_pos hunbroken]
      simp [hspace]
    have hparameter : Line.nonEmpty? (Chars.trim (' ' :: parameter.toList)) = some parameter := by
      rw [Chars.trim_cons_blank hspace (hcommand.parameter_trimmed parameter rfl),
        nonEmpty?_toList (hcommand.parameter_ne_empty parameter rfl)]
    simp [Command.text, hname, hrest, hparameter]

end Parts

/-! ## Kinds of rows -/

section Rows

variable {settings : Settings} {node : Node} {command : Command} {choice : Choice}

theorem isTrimmed_bracketed (name : List Char) : IsTrimmed ('[' :: (name ++ [']'])) := by
  have hopening : Chars.isBlank '[' = false := by decide
  have hclosing : Chars.isBlank ']' = false := by decide
  have hname : IsTrimmed (['['] ++ (name ++ [']'])) := by
    apply Chars.isTrimmed_append <;> simp [hopening, hclosing]
  exact hname

theorem isTrimmed_colon {name : String} (hne : name ≠ "") (htrimmed : IsTrimmed name.toList) :
    IsTrimmed (name.toList ++ [':']) := by
  have hcolon : Chars.isBlank ':' = false := by decide
  exact Chars.isTrimmed_append (by simpa using hne) (by simp) htrimmed.1 (by simpa using hcolon)

theorem toList_speakerRow (name : String) : (name ++ ":").toList = name.toList ++ [':'] := by simp

theorem toList_tagRow (name : String) :
    ("[" ++ name ++ "]").toList = '[' :: (name.toList ++ [']']) := by
  simp

theorem toList_labelRow (label : String) : ("\t" ++ label).toList = '\t' :: label.toList := by simp

theorem toList_targetRow (name : String) :
    ("\t[" ++ name ++ "]").toList = '\t' :: '[' :: (name.toList ++ [']']) := by
  simp

theorem kind_speakerRow (hindent : 1 ≤ settings.minIndent) (hnode : node.Writable settings) :
    settings.kind (node.speaker ++ ":").toList = .speaker := by
  have hne : node.speaker.toList ≠ [] := by simpa using hnode.speaker_ne_empty
  rw [toList_speakerRow,
    kind_of_isTrimmed hindent (isTrimmed_colon hnode.speaker_ne_empty hnode.speaker_trimmed),
    contentKind_colon hne hnode.speaker_unmarked]

theorem kind_tagRow (hindent : 1 ≤ settings.minIndent) (name : String) :
    settings.kind ("[" ++ name ++ "]").toList = .tag := by
  rw [toList_tagRow, kind_of_isTrimmed hindent (isTrimmed_bracketed _), contentKind_bracketed]

theorem kind_textRow (hindent : 1 ≤ settings.minIndent) (hnode : node.Writable settings)
    (htext : node.text ≠ "") : settings.kind node.text.toList = .speech := by
  have hcontent := hnode.text_isContent htext
  rw [kind_of_isTrimmed hindent hcontent.trimmed,
    contentKind_plain (by simpa using htext) hcontent.unmarked hcontent.unbracketed,
    if_neg hnode.text_last]

theorem kind_commandRow (hindent : 1 ≤ settings.minIndent) (hcommand : command.WellFormed) :
    settings.kind command.text.toList = .command := by
  rw [kind_of_isTrimmed hindent (isTrimmed_command hcommand.legible)]
  obtain ⟨name, parameter⟩ := command
  cases parameter <;> simp [Command.text, contentKind_ordered]

/-- The label of a choice may look like speech or like a speaker. -/
theorem innerKind_labelRow (hchoice : choice.Writable settings) :
    Line.innerKind ("\t" ++ choice.text).toList = .speech ∨
      Line.innerKind ("\t" ++ choice.text).toList = .speaker := by
  have hcontent := hchoice.text_isContent
  rw [toList_labelRow, innerKind_tab hcontent.trimmed,
    contentKind_plain (by simpa using hchoice.text_ne_empty) hcontent.unmarked hcontent.unbracketed]
  split
  · exact .inr rfl
  · exact .inl rfl

theorem kind_labelRow (hchoice : choice.Writable settings) :
    settings.kind ("\t" ++ choice.text).toList = .choice := by
  have hinner := innerKind_labelRow hchoice
  rw [toList_labelRow, innerKind_tab hchoice.text_isContent.trimmed] at hinner
  rw [toList_labelRow]
  apply kind_tab hchoice.text_isContent.trimmed
  · rintro hblank
    simp [hblank] at hinner
  · rintro hcomment
    simp [hcomment] at hinner

theorem innerKind_targetRow (name : String) :
    Line.innerKind ("\t[" ++ name ++ "]").toList = .tag := by
  rw [toList_targetRow, innerKind_tab (isTrimmed_bracketed _), contentKind_bracketed]

theorem kind_targetRow (settings : Settings) (name : String) :
    settings.kind ("\t[" ++ name ++ "]").toList = .choice := by
  rw [toList_targetRow]
  apply kind_tab (isTrimmed_bracketed _) <;> simp [contentKind_bracketed]

end Rows

/-! ## Lines of a script of rows -/

section Lines

/-- A line that a script holds as it is, and that counts. -/
structure IsRow (settings : Settings) (line : Line) : Prop where
  newline_not_mem : '\n' ∉ line
  last : ∀ c ∈ line.getLast?, Chars.isBlank c = false
  counts : settings.counts line

variable {settings : Settings} {node : Node} {graph : Graph} {text : String}

theorem counts_of_kind {kind : Kind} {line : Line} (hkind : settings.kind line = kind)
    (hblank : kind ≠ .blank) (hcomment : kind ≠ .comment) : settings.counts line := by
  simp [Settings.counts, hkind, hblank, hcomment]

theorem isRow_speakerRow (hindent : 1 ≤ settings.minIndent) (hnode : node.Writable settings) :
    IsRow settings (node.speaker ++ ":").toList where
  newline_not_mem := by
    have hspeaker : '\n' ∉ node.speaker.toList :=
      hnode.newline_not_mem _ (by simp [Node.fields])
    simpa using hspeaker
  last := by
    rw [toList_speakerRow]
    exact (isTrimmed_colon hnode.speaker_ne_empty hnode.speaker_trimmed).2
  counts := counts_of_kind (kind_speakerRow hindent hnode) (by simp) (by simp)

theorem isRow_tagRow (hindent : 1 ≤ settings.minIndent) (hnode : node.Writable settings) :
    IsRow settings ("[" ++ node.tag ++ "]").toList where
  newline_not_mem := by
    have htag : '\n' ∉ node.tag.toList := hnode.newline_not_mem _ (by simp [Node.fields])
    simpa using htag
  last := by
    rw [toList_tagRow]
    exact (isTrimmed_bracketed _).2
  counts := counts_of_kind (kind_tagRow hindent _) (by simp) (by simp)

theorem isRow_textRow (hindent : 1 ≤ settings.minIndent) (hnode : node.Writable settings)
    (htext : node.text ≠ "") : IsRow settings node.text.toList where
  newline_not_mem := hnode.newline_not_mem _ (by simp [Node.fields])
  last := (hnode.text_isContent htext).trimmed.2
  counts := counts_of_kind (kind_textRow hindent hnode htext) (by simp) (by simp)

theorem isRow_commandRow (hindent : 1 ≤ settings.minIndent) (hnode : node.Writable settings)
    {command : Command} (hcommand : command ∈ node.commands) :
    IsRow settings command.text.toList where
  newline_not_mem := by
    have hmem : ∀ field ∈ command.name :: command.parameter.toList, '\n' ∉ field.toList := by
      intro field hfield
      apply hnode.newline_not_mem
      exact List.mem_append_left _
        (List.mem_append_right _ (List.mem_flatMap_of_mem hcommand hfield))
    obtain ⟨name, parameter⟩ := command
    cases parameter with
    | none => simpa [Command.text] using hmem
    | some parameter => simpa [Command.text] using hmem
  last := (isTrimmed_command (hnode.commands command hcommand).legible).2
  counts :=
    counts_of_kind (kind_commandRow hindent (hnode.commands command hcommand)) (by simp) (by simp)

theorem isRow_choiceRows (hnode : node.Writable settings) {choice : Choice}
    (hchoice : choice ∈ node.choices) : ∀ row ∈ choice.rows, IsRow settings row.toList := by
  have hwritable : choice.Writable settings := hnode.choices_writable choice hchoice
  have hmem : ∀ field ∈ [choice.text, choice.target], '\n' ∉ field.toList := by
    intro field hfield
    apply hnode.newline_not_mem
    exact List.mem_append_right _ (List.mem_flatMap_of_mem hchoice hfield)
  rw [Choice.rows, List.forall_mem_cons, List.forall_mem_singleton]
  constructor
  · refine ⟨by simpa using hmem choice.text (by simp), ?_,
      counts_of_kind (kind_labelRow hwritable) (by simp) (by simp)⟩
    rw [toList_labelRow, List.getLast?_cons_of_ne_nil (by simpa using hwritable.text_ne_empty)]
    exact hwritable.text_isContent.trimmed.2
  · refine ⟨by simpa using hmem choice.target (by simp), ?_,
      counts_of_kind (kind_targetRow settings _) (by simp) (by simp)⟩
    rw [toList_targetRow, List.getLast?_cons_of_ne_nil (by simp)]
    exact (isTrimmed_bracketed _).2

theorem isRow_of_mem_rows (hindent : 1 ≤ settings.minIndent) (hnode : node.Writable settings) :
    ∀ row ∈ node.rows, IsRow settings row.toList := by
  unfold Node.rows
  simp only [List.forall_mem_append, List.forall_mem_cons, List.forall_mem_map,
    List.forall_mem_flatMap, List.mem_nil_iff, false_implies, implies_true, and_true]
  refine ⟨⟨⟨⟨isRow_speakerRow hindent hnode, isRow_tagRow hindent hnode⟩, ?_⟩, ?_⟩, ?_⟩
  · split
    · simp
    · next htext => simpa using isRow_textRow hindent hnode htext
  · exact fun command hcommand => isRow_commandRow hindent hnode hcommand
  · exact fun choice hchoice => isRow_choiceRows hnode hchoice

/-- The lines that count in the script of a graph are its rows. -/
theorem countedLines_printed (hindent : 1 ≤ settings.minIndent) (hgraph : graph.Writable settings)
    (htext : text = graph.printed ∨ text = graph.printed ++ "\n") :
    countedLines settings text = (graph.nodes.flatMap Node.rows).map String.toList := by
  have hrows : ∀ row ∈ (graph.nodes.flatMap Node.rows).map String.toList, IsRow settings row := by
    simp only [List.forall_mem_map, List.forall_mem_flatMap]
    exact fun node hnode => isRow_of_mem_rows hindent (hgraph.nodes node hnode)
  have hprinted : graph.printed.toList =
      ['\n'].intercalate ((graph.nodes.flatMap Node.rows).map String.toList) := by
    rw [Graph.printed, String.toList_intercalate]
    rfl
  generalize (graph.nodes.flatMap Node.rows).map String.toList = rows at hrows hprinted ⊢
  obtain ⟨empty, hempty, hlines⟩ : ∃ empty, (∀ line ∈ empty, line = []) ∧
      Chars.lines text.toList = rows ++ empty := by
    have hnewline : ∀ row ∈ rows, '\n' ∉ row := fun row hrow => (hrows row hrow).newline_not_mem
    rcases htext with rfl | rfl
    · simpa [hprinted] using Chars.lines_intercalate hnewline (.inl rfl)
    · simpa [hprinted] using Chars.lines_intercalate hnewline (.inr rfl)
  have hkept : rows.map Chars.dropReturns = rows := by
    rw [List.map_congr_left fun row hrow => Chars.dropReturns_of_getLast? (hrows row hrow).last,
      List.map_id']
  have hcounts : rows.filter settings.counts = rows :=
    List.filter_eq_self.mpr fun row hrow => (hrows row hrow).counts
  have hnone : (empty.map Chars.dropReturns).filter settings.counts = [] := by
    rw [List.filter_eq_nil_iff, List.forall_mem_map]
    intro line hline
    rw [hempty line hline]
    simp [Settings.counts, Settings.kind, Line.kind, Line.contentKind, Chars.dropReturns]
  rw [countedLines, scriptLines_eq, hlines, List.map_append, List.filter_append, hkept, hcounts,
    hnone, List.append_nil]

end Lines

end Script

end Colloquy
