import Mathlib.Data.List.TakeWhile
import Colloquy.Proofs.Chars.Trimmed
import Colloquy.Proofs.Script.Reading

/-!
# Compiled scripts are well formed

Whatever stands in a script, its nodes can be told apart by their tags, stay within the limits,
and hold only names, targets and texts of the form that the rest of the library counts on.

The characters of every field come from one line each, or from the words that the compiler makes
up. So the first part of the file says what can be taken from a line, the second what a passage
makes of it.
-/

namespace Colloquy

/-! ## Well-formed graphs -/

/-- A command whose name can be told from its parameter: neither is empty, no blank stands in the
name, and none around the parameter. -/
structure Command.WellFormed (command : Command) : Prop where
  name_ne_empty : command.name ≠ ""
  name_unbroken : ∀ c ∈ command.name.toList, Chars.isBlank c = false
  parameter_ne_empty : ∀ parameter ∈ command.parameter, parameter ≠ ""
  parameter_trimmed : ∀ parameter ∈ command.parameter, Chars.IsTrimmed parameter.toList

/-- A choice with a target. -/
structure Choice.WellFormed (choice : Choice) : Prop where
  target_ne_empty : choice.target ≠ ""
  target_trimmed : Chars.IsTrimmed choice.target.toList

/-- All texts in a node. -/
def Node.fields (node : Node) : List String :=
  [node.tag, node.speaker, node.text] ++
    node.commands.flatMap (fun command => command.name :: command.parameter.toList) ++
    node.choices.flatMap fun choice => [choice.text, choice.target]

/-- A node with a tag that stays within the limits. -/
structure Node.WellFormed (settings : Script.Settings) (node : Node) : Prop where
  tag_ne_empty : node.tag ≠ ""
  length_commands : node.commands.length ≤ settings.maxCommands.toNat
  length_choices : node.choices.length ≤ settings.maxChoices.toNat
  commands : ∀ command ∈ node.commands, command.WellFormed
  choices : ∀ choice ∈ node.choices, choice.WellFormed
  newline_not_mem : ∀ field ∈ node.fields, '\n' ∉ field.toList

/-- A graph as the compiler makes it. Only its last node may be without a speaker. -/
structure Graph.WellFormed (settings : Script.Settings) (graph : Graph) : Prop where
  size_le : graph.size ≤ settings.maxNodes.toNat
  nodup_tags : graph.tags.Nodup
  nodes : ∀ node ∈ graph.nodes, node.WellFormed settings
  speakers : ∀ node ∈ graph.nodes.dropLast, node.speaker ≠ ""

namespace Script

open Line (Kind)

/-! ## What is taken from a line -/

theorem nonEmpty?_eq_some {cs : List Char} {s : String} (h : Line.nonEmpty? cs = some s) :
    cs ≠ [] ∧ s = String.ofList cs := by
  unfold Line.nonEmpty? at h
  by_cases hcs : cs.isEmpty
  · rw [if_pos hcs] at h
    cases h
  · rw [if_neg hcs, Option.some.injEq] at h
    exact ⟨by simpa using hcs, h.symm⟩

/-- A text that is a part of a line, trimmed and not empty. -/
structure IsPart (s : String) (line : Line) : Prop where
  sublist : s.toList.Sublist line
  ne_empty : s ≠ ""
  trimmed : Chars.IsTrimmed s.toList

theorem isPart_trim {cs : List Char} {line : Line} (hsub : cs.Sublist line)
    (hne : Chars.trim cs ≠ []) : IsPart (String.ofList (Chars.trim cs)) line := by
  refine ⟨?_, ?_, ?_⟩
  · rw [String.toList_ofList]
    exact (Chars.trim_sublist cs).trans hsub
  · intro h
    exact hne (by simpa using congrArg String.toList h)
  · rw [String.toList_ofList]
    exact Chars.isTrimmed_trim cs

/-- A line that counts has some content. -/
theorem trim_ne_nil_of_counts {settings : Settings} {line : Line} (hcounts : settings.counts line) :
    Chars.trim line ≠ [] := by
  intro hempty
  have hkind : settings.kind line = .blank := by
    rw [Settings.kind, Line.kind, hempty]
    rfl
  simp [Settings.counts, hkind] at hcounts

theorem isPart_tagName {line : Line} (hne : Chars.trim line ≠ []) : IsPart (tagName line) line := by
  unfold tagName
  cases htag : Line.tag? line with
  | none => exact isPart_trim (List.Sublist.refl line) hne
  | some tag =>
    unfold Line.tag? at htag
    split at htag
    · cases htag
    · next inside hinside =>
      split at htag
      · obtain ⟨hne', rfl⟩ := nonEmpty?_eq_some htag
        have hsub : inside.Sublist (Chars.trim line) :=
          (List.sublist_cons_self _ _).trans (hinside ▸ (List.dropWhile_suffix _).sublist)
        exact isPart_trim ((List.takeWhile_sublist _).trans
          (hsub.trans (Chars.trim_sublist line))) hne'
      · cases htag

theorem isPart_speakerName {line : Line} (hne : Chars.trim line ≠ []) :
    IsPart (speakerName line) line := by
  unfold speakerName
  cases hspeaker : Line.speaker? line with
  | none => exact isPart_trim (List.Sublist.refl line) hne
  | some speaker =>
    unfold Line.speaker? at hspeaker
    dsimp only at hspeaker
    split at hspeaker
    · obtain ⟨hne', rfl⟩ := nonEmpty?_eq_some hspeaker
      exact isPart_trim ((List.dropLast_sublist _).trans (Chars.trim_sublist line)) hne'
    · cases hspeaker

theorem clip_sublist (settings : Settings) (line : Line) :
    (settings.clip line).toList.Sublist line := by
  unfold Settings.clip
  split <;> rw [String.toList_ofList]
  · exact (List.take_sublist _ _).trans (Chars.trim_sublist line)
  · exact (List.take_sublist _ _).trans (Chars.trim_sublist line)

theorem unmarked_sublist (line : Line) : (Line.unmarked line).Sublist line := by
  unfold Line.unmarked
  split
  · next content h =>
    exact (List.sublist_cons_self _ _).trans (h ▸ Chars.trim_sublist line)
  · exact Chars.trim_sublist line

/-- The name of a command holds no blank. -/
theorem isBlank_of_mem_name {line : Line} :
    ∀ c ∈ (commandOf line).name.toList, Chars.isBlank c = false := by
  intro c hc
  rw [commandOf, Line.command, String.toList_ofList] at hc
  simpa using List.mem_takeWhile_imp hc

theorem name_sublist (line : Line) : (commandOf line).name.toList.Sublist line := by
  rw [commandOf, Line.command, String.toList_ofList]
  exact (List.takeWhile_sublist _).trans (unmarked_sublist line)

theorem isPart_parameter {line : Line} : ∀ p ∈ (commandOf line).parameter, IsPart p line := by
  intro p hp
  rw [commandOf, Line.command, Option.mem_def] at hp
  obtain ⟨hne, rfl⟩ := nonEmpty?_eq_some hp
  exact isPart_trim ((List.dropWhile_suffix _).sublist.trans (unmarked_sublist line)) hne

/-! ## Lines of a script -/

theorem counts_of_mem_countedLines {settings : Settings} {text : String} {line : Line}
    (hline : line ∈ countedLines settings text) : settings.counts line :=
  (List.mem_filter.mp hline).2

/-- No line holds a line end. -/
theorem newline_not_mem_line {settings : Settings} {text : String} {line : Line}
    (hline : line ∈ countedLines settings text) : '\n' ∉ line := by
  have hmem := (List.mem_filter.mp hline).1
  rw [scriptLines_eq] at hmem
  obtain ⟨cs, hcs, rfl⟩ := List.mem_map.mp hmem
  intro hnewline
  have hinside := (Chars.dropReturns_sublist cs).subset hnewline
  simpa using Chars.not_mem_of_mem_cut hcs '\n' hinside

/-- The lines of a passage are lines of the script. -/
theorem mem_countedLines_of_mem_contents {settings : Settings} {text : String} {passage : Passage}
    (hpassage : passage ∈ contents settings text) :
    ∀ line ∈ passage, line ∈ countedLines settings text := by
  intro line hline
  have hflat := flatten_passagesFrom settings [] (countedLines settings text)
  rw [List.nil_append] at hflat
  rw [← hflat]
  exact List.mem_flatten_of_mem (List.mem_filter.mp hpassage).1 hline

/-- The lines of one kind are lines of the passage. -/
theorem mem_of_mem_ofKind {settings : Settings} {kind : Kind} {passage : Passage} {line : Line}
    (hline : line ∈ Passage.ofKind settings kind passage) : line ∈ passage :=
  (List.mem_filter.mp hline).1

/-! ## What a passage makes of its lines -/

section Passage

variable {settings : Settings} {passage : Passage}

theorem exists_of_mem_speaker : ∀ speaker ∈ Passage.speaker settings passage,
    ∃ line ∈ passage, speaker = speakerName line := by
  intro speaker hspeaker
  obtain ⟨line, hline, rfl⟩ := Option.map_eq_some_iff.mp hspeaker
  exact ⟨line, mem_of_mem_ofKind (List.mem_of_mem_head? hline), rfl⟩

theorem exists_of_mem_tag : ∀ tag ∈ Passage.tag settings passage,
    ∃ line ∈ passage, tag = tagName line := by
  intro tag htag
  obtain ⟨line, hline, rfl⟩ := Option.map_eq_some_iff.mp htag
  exact ⟨line, mem_of_mem_ofKind (List.mem_of_getLast? hline), rfl⟩

theorem exists_of_mem_speech : ∀ s ∈ Passage.speech settings passage,
    ∃ line ∈ passage, s = settings.clip line := by
  intro s hs
  obtain ⟨line, hline, rfl⟩ := List.mem_map.mp hs
  exact ⟨line, mem_of_mem_ofKind hline, rfl⟩

theorem exists_of_mem_commands : ∀ command ∈ Passage.commands settings passage,
    command.name ≠ "" ∧ ∃ line ∈ passage, command = commandOf line := by
  intro command hcommand
  obtain ⟨hnamed, hname⟩ := List.mem_filter.mp (List.mem_of_mem_take hcommand)
  obtain ⟨line, hline, rfl⟩ := List.mem_map.mp hnamed
  refine ⟨?_, line, mem_of_mem_ofKind hline, rfl⟩
  simpa using hname

theorem mem_of_mem_pairs {lines : List Line} : ∀ pair ∈ pairs settings lines,
    pair.1 ∈ lines ∧ pair.2 ∈ lines := by
  intro pair hpair
  obtain ⟨hlabel, htarget⟩ := List.of_mem_zip (List.mem_filter.mp hpair).1
  exact ⟨(List.mem_filter.mp hlabel).1, (List.mem_filter.mp (List.mem_of_mem_tail htarget)).1⟩

theorem exists_of_mem_choices : ∀ choice ∈ Passage.choices settings passage,
    ∃ label ∈ passage, ∃ target ∈ passage, choice = settings.choiceOf (label, target) := by
  intro choice hchoice
  obtain ⟨pair, hpair, rfl⟩ := List.mem_map.mp (List.mem_of_mem_take hchoice)
  obtain ⟨hlabel, htarget⟩ := mem_of_mem_pairs pair hpair
  exact ⟨pair.1, hlabel, pair.2, htarget, rfl⟩

end Passage

/-! ## Tags that are made up -/

theorem newline_not_mem_repr (n : Nat) : '\n' ∉ (Nat.repr n).toList := by
  intro h
  rw [Nat.toList_repr] at h
  have hdigit := Nat.isDigit_of_mem_toDigits (by decide) (by decide) h
  exact absurd hdigit (by decide)

theorem newline_not_mem_autoTag (n : Nat) : '\n' ∉ (autoTag n).toList := by
  rw [autoTag, String.toList_append, List.mem_append, not_or]
  exact ⟨by decide, newline_not_mem_repr n⟩

theorem newline_not_mem_numbered {base : String} (h : '\n' ∉ base.toList) (n : Nat) :
    '\n' ∉ (numbered base n).toList := by
  simp only [numbered, String.toList_append, List.mem_append, not_or]
  exact ⟨⟨h, by decide⟩, newline_not_mem_repr n⟩

theorem autoTag_ne_empty (n : Nat) : autoTag n ≠ "" := by
  intro h
  have := congrArg String.toList h
  simp [autoTag] at this

theorem numbered_ne_empty (base : String) (n : Nat) : numbered base n ≠ "" := by
  intro h
  have := congrArg String.toList h
  simp [numbered] at this

/-! ## Nodes and graphs -/

theorem wellFormed_commandOf {line : Line} (hname : (commandOf line).name ≠ "") :
    (commandOf line).WellFormed where
  name_ne_empty := hname
  name_unbroken := isBlank_of_mem_name
  parameter_ne_empty p hp := (isPart_parameter p hp).ne_empty
  parameter_trimmed p hp := (isPart_parameter p hp).trimmed

theorem wellFormed_choiceOf {settings : Settings} {label target : Line}
    (htarget : settings.counts target) : (settings.choiceOf (label, target)).WellFormed where
  target_ne_empty := (isPart_tagName (trim_ne_nil_of_counts htarget)).ne_empty
  target_trimmed := (isPart_tagName (trim_ne_nil_of_counts htarget)).trimmed

section Passage

variable {settings : Settings} {passage : Passage}

/-- A text made of several ones holds their characters and those that stand between them. -/
theorem mem_toList_intercalate {c : Char} {separator : String} {l : List String}
    (h : c ∈ (separator.intercalate l).toList) : c ∈ separator.toList ∨ ∃ s ∈ l, c ∈ s.toList := by
  induction l with
  | nil => simp at h
  | cons s l ih =>
    by_cases hl : l = []
    · subst hl
      rw [String.intercalate_singleton] at h
      exact Or.inr ⟨s, by simp, h⟩
    · rw [String.intercalate_cons_of_ne_nil hl, String.toList_append, String.toList_append,
        List.mem_append, List.mem_append] at h
      rcases h with (h | h) | h
      · exact Or.inr ⟨s, by simp, h⟩
      · exact Or.inl h
      · rcases ih h with h | ⟨t, ht, h⟩
        · exact Or.inl h
        · exact Or.inr ⟨t, List.mem_cons_of_mem _ ht, h⟩

/-- No field holds a line end if no line does. -/
theorem newline_not_mem_fields (hcounts : ∀ line ∈ passage, settings.counts line)
    (hlines : ∀ line ∈ passage, '\n' ∉ line) {tag : String} (htag : '\n' ∉ tag.toList) :
    ∀ field ∈ (Passage.node settings passage tag).fields, '\n' ∉ field.toList := by
  have hpart : ∀ {s : String} {line : Line}, line ∈ passage → s.toList.Sublist line →
      '\n' ∉ s.toList := fun hline hs h => hlines _ hline (hs.subset h)
  intro field hfield
  simp only [Node.fields, Passage.node, List.mem_append, List.mem_cons, List.mem_flatMap,
    List.not_mem_nil, or_false] at hfield
  rcases hfield with ((rfl | rfl | rfl) | ⟨command, hcommand, hfield⟩) | ⟨choice, hchoice, hfield⟩
  · exact htag
  · cases hspeaker : Passage.speaker settings passage with
    | none => simp
    | some speaker =>
      obtain ⟨line, hline, rfl⟩ := exists_of_mem_speaker speaker hspeaker
      exact hpart hline (isPart_speakerName (trim_ne_nil_of_counts (hcounts line hline))).sublist
  · intro hnewline
    rcases mem_toList_intercalate hnewline with hspace | ⟨s, hs, hmem⟩
    · exact absurd hspace (by decide)
    · obtain ⟨line, hline, rfl⟩ := exists_of_mem_speech s hs
      exact hpart hline (clip_sublist settings line) hmem
  · obtain ⟨_, line, hline, rfl⟩ := exists_of_mem_commands command hcommand
    rcases hfield with rfl | hfield
    · exact hpart hline (name_sublist line)
    · exact hpart hline (isPart_parameter field (Option.mem_toList.mp hfield)).sublist
  · obtain ⟨label, hlabel, target, htarget, rfl⟩ := exists_of_mem_choices choice hchoice
    rcases hfield with rfl | rfl
    · exact hpart hlabel (clip_sublist settings label)
    · exact hpart htarget
        (isPart_tagName (trim_ne_nil_of_counts (hcounts target htarget))).sublist

theorem wellFormed_node (hcounts : ∀ line ∈ passage, settings.counts line)
    (hlines : ∀ line ∈ passage, '\n' ∉ line) {tag : String} (hne : tag ≠ "")
    (htag : '\n' ∉ tag.toList) : (Passage.node settings passage tag).WellFormed settings where
  tag_ne_empty := hne
  length_commands := List.length_take_le _ _
  length_choices := List.length_take_le _ _
  commands command hcommand := by
    obtain ⟨hname, line, _, rfl⟩ := exists_of_mem_commands command hcommand
    exact wellFormed_commandOf hname
  choices choice hchoice := by
    obtain ⟨label, _, target, htarget, rfl⟩ := exists_of_mem_choices choice hchoice
    exact wellFormed_choiceOf (hcounts target htarget)
  newline_not_mem := newline_not_mem_fields hcounts hlines htag

end Passage

/-- The tags of a script are neither empty nor do they hold a line end. -/
theorem tag_of_mem_giveTags {settings : Settings} {text : String} :
    ∀ tag ∈ giveTags (ownTags settings (contents settings text)), tag ≠ "" ∧ '\n' ∉ tag.toList := by
  apply forall_mem_giveTags
  · intro own hown tag htag
    obtain ⟨passage, hpassage, rfl⟩ := List.mem_map.mp hown
    obtain ⟨line, hline, rfl⟩ := exists_of_mem_tag tag htag
    have hmem := mem_countedLines_of_mem_contents (List.mem_of_mem_take hpassage) line hline
    have hpart := isPart_tagName (trim_ne_nil_of_counts (counts_of_mem_countedLines hmem))
    exact ⟨hpart.ne_empty, fun h => newline_not_mem_line hmem (hpart.sublist.subset h)⟩
  · exact ⟨by decide, by decide⟩
  · exact fun n => ⟨autoTag_ne_empty n, newline_not_mem_autoTag n⟩
  · exact fun base n h => ⟨numbered_ne_empty base n, newline_not_mem_numbered h.2 n⟩

/-- All nodes but the last have a speaker. -/
theorem speaker_of_mem_dropLast (settings : Settings) (text : String) :
    ∀ node ∈ (compile settings text).graph.nodes.dropLast, node.speaker ≠ "" := by
  intro node hnode
  have hmap : (compile settings text).graph.nodes.map (·.speaker) =
      ((contents settings text).take settings.maxNodes.toNat).map
        fun passage => (Passage.speaker settings passage).getD "" := by
    rw [nodes_compile]
    exact map_nodesOf (fun _ _ => rfl) _
  have hspeaker :
      node.speaker ∈ ((compile settings text).graph.nodes.map (·.speaker)).dropLast := by
    rw [← List.map_dropLast]
    exact List.mem_map_of_mem hnode
  rw [hmap, ← List.map_dropLast] at hspeaker
  obtain ⟨passage, hpassage, heq⟩ := List.mem_map.mp hspeaker
  have hmem : passage ∈ (contents settings text).dropLast := by
    rw [List.dropLast_eq_take, List.take_take, List.length_take] at hpassage
    rw [List.dropLast_eq_take]
    exact List.take_subset_take_left _ (by omega) hpassage
  obtain ⟨speaker, hsome⟩ :=
    Option.isSome_iff_exists.mp (speaker_isSome_of_mem_dropLast_contents hmem)
  obtain ⟨line, hline, rfl⟩ := exists_of_mem_speaker speaker hsome
  have hline := mem_countedLines_of_mem_contents (List.dropLast_subset _ hmem) line hline
  rw [← heq, hsome]
  exact (isPart_speakerName (trim_ne_nil_of_counts (counts_of_mem_countedLines hline))).ne_empty

theorem wellFormed_of_mem_nodes {settings : Settings} {text : String} :
    ∀ node ∈ (compile settings text).graph.nodes, node.WellFormed settings := by
  intro node hnode
  rw [nodes_compile] at hnode
  obtain ⟨passage, hpassage, tag, htag, rfl⟩ := exists_of_mem_nodesOf hnode
  have hlines := mem_countedLines_of_mem_contents hpassage
  obtain ⟨hne, hnewline⟩ := tag_of_mem_giveTags tag htag
  exact wellFormed_node (fun line hline => counts_of_mem_countedLines (hlines line hline))
    (fun line hline => newline_not_mem_line (hlines line hline)) hne hnewline

/-- Compiling never fails: the nodes that the passages of a script stand for always make a graph,
and that graph is well formed. -/
theorem compile_wellFormed (settings : Settings) (text : String) :
    Graph.ofNodes (nodesOf settings (contents settings text)) = .ok (compile settings text).graph ∧
      (compile settings text).graph.WellFormed settings := by
  rw [← nodes_compile]
  refine ⟨Graph.ofNodes_nodes _, ?_, (compile settings text).graph.nodup, wellFormed_of_mem_nodes,
    speaker_of_mem_dropLast settings text⟩
  rw [Graph.size, nodes_compile, length_nodesOf, ownTags, List.length_map]
  exact List.length_take_le _ _

end Script

end Colloquy
