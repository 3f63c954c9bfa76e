import Colloquy.Proofs.Chars.Words
import Colloquy.Proofs.Script.Printed

/-!
# Lines with commands

The name of a command ends at the first blank of its line, and what is left of the line without
the blanks around it is the parameter (`commandOf_line`). The commands of a node are read from
lines of its passage, one from each (`commands_eq_map`).

Every line gives a command that can be shown on a line, and from that line the same command is
read (`command_read_back`). The two lines need not be the same: the second one has a single space
where the first one may have any blanks.
-/

namespace Colloquy

/-- The words of a parameter. -/
theorem Command.arguments_eq (name : String) (parameter : List Char) :
    Command.arguments ⟨name, some (String.ofList parameter)⟩ =
      (Chars.words parameter).map String.ofList := by
  rw [arguments, Option.getD_some, String.toList_ofList]

namespace Script

open Chars

/-- A command with a parameter is read from a line, whatever blanks stand in the line. -/
theorem commandOf_line {front name gap parameter back : List Char} (hfront : IsGap front)
    (hname : IsWord name) (hgap : IsGap gap) (hgapne : gap ≠ []) (hne : parameter ≠ [])
    (htrimmed : IsTrimmed parameter) (hback : IsGap back) :
    commandOf (front ++ (('@' :: (name ++ (gap ++ parameter))) ++ back)) =
      ⟨String.ofList name, some (String.ofList parameter)⟩ := by
  have hcore : IsTrimmed ('@' :: (name ++ (gap ++ parameter))) := by
    have hsplit : '@' :: (name ++ (gap ++ parameter)) = ('@' :: (name ++ gap)) ++ parameter := by
      simp
    rw [hsplit]
    exact isTrimmed_append (List.cons_ne_nil _ _) hne (by simp; decide) htrimmed.2
  have hunmarked : Line.unmarked (front ++ (('@' :: (name ++ (gap ++ parameter))) ++ back)) =
      name ++ (gap ++ parameter) := by
    rw [Line.unmarked, trim_gaps hfront hback hcore]
    rfl
  have hbreaks := hgap.breaks hgapne parameter
  have hrest : trim (gap ++ parameter) = parameter := by
    rw [trim_blanks_append hgap, trim_of_isTrimmed htrimmed]
  rw [commandOf, Line.command, hunmarked]
  dsimp only
  rw [takeWhile_word hname hbreaks, dropWhile_word hname hbreaks, hrest, Line.nonEmpty?,
    if_neg (by simpa using hne)]

namespace Passage

/-- The lines whose commands are kept. -/
def commandLines (settings : Settings) (passage : Passage) : List Line :=
  ((ofKind settings .command passage).filter fun line => ! (commandOf line).name.isEmpty).take
    settings.maxCommands.toNat

/-- The commands of a passage are read from its lines, one from each that is kept. -/
theorem commands_eq_map (settings : Settings) (passage : Passage) :
    commands settings passage = (commandLines settings passage).map commandOf := by
  rw [commands, namedCommands, commandLines, List.map_take, List.filter_map]
  rfl

end Passage

/-- Every node of a script has the commands of the passage in its place. -/
theorem commands_of_getElem? {settings : Settings} {text : String} {place : Nat} {node : Node}
    {passage : Passage} (hnode : (compile settings text).graph.nodes[place]? = some node)
    (hpassage : (contents settings text)[place]? = some passage) :
    node.commands = Passage.commands settings passage := by
  rw [nodes_compile, nodesOf_eq, List.getElem?_zipWith] at hnode
  split at hnode
  · next kept tag hkept _ =>
    rw [Option.some.injEq] at hnode
    rw [List.getElem?_take] at hkept
    split at hkept
    · rw [hpassage, Option.some.injEq] at hkept
      rw [← hnode, hkept]
      rfl
    · cases hkept
  · cases hnode

/-! ## Read and shown again -/

theorem command_eq (line : Line) :
    Line.command line = ((commandOf line).name, (commandOf line).parameter) := rfl

/-- What is read from a line can be shown on a line. -/
theorem legible_commandOf (line : Line) : (commandOf line).Legible where
  name_unbroken := isBlank_of_mem_name
  parameter_ne_empty parameter hparameter := (isPart_parameter parameter hparameter).ne_empty
  parameter_trimmed parameter hparameter := (isPart_parameter parameter hparameter).trimmed

/-- A line with a command begins with the marker. -/
theorem exists_of_kind_command {minIndent : Int} {line : Line}
    (hkind : Line.kind minIndent line = .command) :
    ∃ content, trim line = '@' :: content := by
  have hcontent : Line.contentKind (trim line) = .command := by
    unfold Line.kind at hkind
    split at hkind
    · cases hkind
    · cases hkind
    · split at hkind
      · cases hkind
      · exact hkind
  unfold Line.contentKind at hcontent
  split at hcontent
  · cases hcontent
  · next first rest hline =>
    have hmarker : first = '@' := by
      by_contra hother
      simp only [beq_iff_eq, hother, if_false] at hcontent
      repeat' split at hcontent
      all_goals cases hcontent
    exact ⟨rest, by rw [hline, hmarker]⟩

/-- The name is what stands between the marker and the first blank, which may be nothing. -/
theorem name_eq_empty_iff {line : Line} {content : List Char} (hline : trim line = '@' :: content) :
    (commandOf line).name = "" ↔ Breaks content := by
  have hunmarked : Line.unmarked line = content := by
    rw [Line.unmarked, hline]
    rfl
  rw [commandOf, Line.command, hunmarked, String.ofList_eq_empty_iff]
  cases content with
  | nil => simp [breaks_nil]
  | cons c content =>
    cases hblank : isBlank c <;> simp [Breaks, hblank]

/-- A command is read back from the line that shows it, from whatever line it has been read
before, and be its name empty or begin with a marker itself. Its name holds no blank, and its
parameter, if it has one, is trimmed and not empty. On a line that is meant as a command, nothing
but the end of the line or a blank after the marker makes the name empty. -/
theorem command_read_back (line : Line) :
    let command := commandOf line
    Line.command command.text.toList = (command.name, command.parameter) ∧
      (∀ c ∈ command.name.toList, isBlank c = false) ∧
      (∀ parameter ∈ command.parameter, parameter ≠ "" ∧ IsTrimmed parameter.toList) ∧
      ∀ minIndent, Line.kind minIndent line = .command →
        (command.name = "" ↔
          trim line = ['@'] ∨ ∃ blank rest,
          trim line = '@' :: blank :: rest ∧ isBlank blank = true) := by
  intro command
  have hlegible : command.Legible := legible_commandOf line
  have hback : commandOf command.text.toList = command := commandOf_text hlegible
  refine ⟨?_, hlegible.name_unbroken, fun parameter hparameter => ?_, fun minIndent hkind => ?_⟩
  · rw [command_eq, hback]
  · exact ⟨hlegible.parameter_ne_empty parameter hparameter,
      hlegible.parameter_trimmed parameter hparameter⟩
  · obtain ⟨content, hline⟩ := exists_of_kind_command hkind
    rw [name_eq_empty_iff hline, hline]
    cases content with
    | nil => simp [breaks_nil]
    | cons c content => simp [Breaks]

/-- Behind the marker stands a blank, so the name is empty, and what would be the name is the
parameter, with a marker of its own. -/
theorem command_read_back_unnamed :
    let line := "@\u3000 @wave  twice ".toList
    Line.kind 2 line = .command ∧ commandOf line = ⟨"", some "@wave  twice"⟩ ∧
      Line.command (commandOf line).text.toList =
        ((commandOf line).name, (commandOf line).parameter) ∧
      ((commandOf line).name = "" ↔
        trim line = ['@'] ∨ ∃ blank rest,
        trim line = '@' :: blank :: rest ∧ isBlank blank = true) := by
  intro line
  have hkind : Line.kind 2 line = .command := rfl
  have hcommand : commandOf line = ⟨"", some "@wave  twice"⟩ := rfl
  obtain ⟨hback, -, -, hempty⟩ := command_read_back line
  exact ⟨hkind, hcommand, hback, hempty 2 hkind⟩

end Script

end Colloquy
