import Colloquy.Proofs.Decimal.Digits
import Colloquy.Proofs.Script.CommandLines
import Colloquy.Proofs.Session.Journal

/-!
# What an author assigns

A line that sets a variable is cut up three times: the compiler takes the command off, the session
takes the words of what is left to find the name, and what follows the first word to find the
value. All three go by the same blanks, so the value is the one that stands in the line
(`runCommand_of_isAssignment`), and nothing else is changed.
-/

namespace Colloquy

open Chars

/-! ## Lines that set a variable -/

/-- A line sets a variable: `@set`, a name without blanks and a value that is not blank, with
blanks of any kind and number between them and around them. -/
def Line.IsAssignment (line : Line) (name value : List Char) : Prop :=
  ∃ before gap gap' after, IsGap before ∧ IsGap gap ∧ gap ≠ [] ∧ IsWord name ∧
    IsGap gap' ∧ gap' ≠ [] ∧
    (∃ c ∈ value, isBlank c = false) ∧ IsGap after ∧
    line = before ++ ("@set".toList ++ (gap ++ (name ++ (gap' ++ (value ++ after)))))

variable {line : Line} {name value : List Char}

/-- The command on such a line has the name and the trimmed value as its parameter, with blanks in
between. -/
theorem Line.IsAssignment.exists_commandOf (h : line.IsAssignment name value) :
    ∃ gap, IsGap gap ∧ gap ≠ [] ∧
      Script.commandOf line = ⟨"set", some (String.ofList (name ++ (gap ++ trim value)))⟩ := by
  obtain ⟨before, gap, gap', after, hbefore, hgap, hgapne, hname, hgap', hgapne', ⟨c, hc, hblank⟩,
    hafter, rfl⟩ := h
  obtain ⟨front, back, hfront, hback, hvalue⟩ := exists_trim value
  have hne : trim value ≠ [] := trim_ne_nil hc hblank
  have hparameter : IsTrimmed (name ++ ((gap' ++ front) ++ trim value)) := by
    rw [← List.append_assoc]
    exact isTrimmed_append (by simp [hname.ne_nil]) hne
      (by rw [List.head?_append_of_ne_nil _ hname.ne_nil]; exact hname.isTrimmed.1)
      (isTrimmed_trim value).2
  refine ⟨gap' ++ front, hgap'.append hfront, by simp [hgapne'], ?_⟩
  have hset : IsWord "set".toList := by decide
  have hline := Script.commandOf_line hbefore hset hgap hgapne (by simp [hname.ne_nil]) hparameter
    (hback.append hafter)
  have hsame : before ++ ("@set".toList ++ (gap ++ (name ++ (gap' ++ (value ++ after))))) =
      before ++
        (('@' :: ("set".toList ++ (gap ++ (name ++ ((gap' ++ front) ++ trim value))))) ++
          (back ++ after)) := by
    conv_lhs => rw [hvalue]
    simp
  rw [hsame, hline]
  rfl

/-! ## Running the command -/

/-- The world after a variable has been set. The log tells of it; nothing else is different. -/
def World.assigned {σ : Type} (world : World σ) (name : String) (value : Value) : World σ :=
  { world with
    rest := { world.rest with
      session := { world.rest.session with store := world.rest.session.store.set name value }
      log := world.rest.log ++
        [⟨.debug, .playback, s!"Dialogue variable set: {name} = {value.display}"⟩] } }

namespace Session

variable {σ ε : Type} (host : Host σ ε) (jump : String → Act σ ε Bool)

theorem runCommand_set {command : Command} {target word : String} {words : List String}
    (hname : command.name = "set") (harguments : command.arguments = target :: word :: words)
    (world : World σ) :
    (runCommand host jump command).on world =
      (.ok false, world.assigned target command.writtenValue) := by
  rw [runCommand, hname, harguments]
  rfl

/-- Running the command of a line that sets a variable stores the value that stands there, and
does not fail. -/
theorem runCommand_of_isAssignment (h : line.IsAssignment name value) (world : World σ) :
    (runCommand host jump (Script.commandOf line)).on world =
      (.ok false, world.assigned (String.ofList name) (Value.parse (String.ofList value))) := by
  obtain ⟨gap, hgap, hne, hcommand⟩ := h.exists_commandOf
  obtain ⟨-, -, -, -, -, -, -, hname, -, -, ⟨c, hc, hblank⟩, -⟩ := h
  have htrim : trim value ≠ [] := trim_ne_nil hc hblank
  have hwords : words (name ++ (gap ++ trim value)) = name :: words (trim value) := by
    rw [words_word_append hname (hgap.breaks hne _), words_gap_append hgap]
  obtain ⟨word, rest, hrest⟩ :=
    List.exists_cons_of_ne_nil (words_ne_nil htrim (isTrimmed_trim value))
  have harguments : (Script.commandOf line).arguments =
      String.ofList name :: String.ofList word :: rest.map String.ofList := by
    rw [hcommand, Command.arguments_eq, hwords, hrest]
    rfl
  have hwritten : (Script.commandOf line).writtenValue = Value.parse (String.ofList value) := by
    rw [hcommand, Command.writtenValue, Option.getD_some, String.toList_ofList,
      afterWord_append hname hgap hne (isTrimmed_trim value), Value.parse, Value.parse,
      String.toList_ofList,
      String.toList_ofList, trim_trim]
  rw [runCommand_set host jump (by rw [hcommand]) harguments, hwritten]

end Session

/-! ## What is stored -/

namespace Store

/-- What a store holds after a variable has been set to what a text stands for. -/
structure HasWritten (before after : Store) (name : String) (value : List Char) : Prop where
  stored : after.get? name = some (Value.parse (String.ofList value))
  kept : ∀ other, other ≠ name → after.get? other = before.get? other
  integer : ∀ i default palette, Decimal.IsInteger (trim value) i →
    after.getTyped .int name default palette = .ok (.value (.int i))
  text : ∀ s, Value.parse (String.ofList value) = .text s →
  after.display name = String.ofList (trim value)
  /-- An integer has few enough digits to be written into the log. -/
  short : ∀ i, Value.parse (String.ofList value) = .int i →
    (Decimal.natText i.natAbs).length ≤ Decimal.maxDigits

theorem hasWritten_set (store : Store) (name : String) (value : List Char) :
    HasWritten store (store.set name (Value.parse (String.ofList value))) name value := by
  have hstored : (store.set name (Value.parse (String.ofList value))).get? name =
      some (Value.parse (String.ofList value)) := Ledger.get?_insert_self ..
  have hparse : Value.parse (String.ofList value) = Value.ofContent (trim value) := by
    rw [Value.parse, String.toList_ofList]
  refine ⟨hstored, fun other hother => Ledger.get?_insert_of_ne _ hother _, ?_, ?_, ?_⟩
  · intro i default palette hinteger
    have hvalue : Value.parse (String.ofList value) = .int i := by
      rw [hparse, Value.ofContent, Decimal.readInt_of_isInteger hinteger]
    rw [getTyped, getKind?, hstored, hvalue]
    · rfl
    · simp
  · intro s hs
    rw [display, hstored]
    rw [hparse, Value.ofContent] at hs ⊢
    split at hs
    · cases hs
    · split at hs
      · cases hs
      · rfl
  · intro i hi
    rw [hparse, Value.ofContent] at hi
    split at hi
    · next hread =>
      cases hi
      exact Decimal.natText_length_of_readInt hread
    · split at hi <;> cases hi

end Store

/-! ## From the script to the store -/

/-- A line of a script that sets a variable and whose command is kept in a node: running the
command stores under the name what the text of the value stands for, in any world and for any
host. It does not fail, it lets the next command have its turn, and nothing but the variable and
the log is different afterwards. -/
theorem assignment_stored {settings : Script.Settings} {text : String} {place index : Nat}
    {node : Node} {passage : Script.Passage}
    (hnode : (Script.compile settings text).graph.nodes[place]? = some node)
    (hpassage : (Script.contents settings text)[place]? = some passage)
    (hline : (Script.Passage.commandLines settings passage)[index]? = some line)
    (hassignment : line.IsAssignment name value) :
    ∃ command, node.commands[index]? = some command ∧
      ∀ {σ ε : Type} (host : Host σ ε) (jump : String → Act σ ε Bool) (world : World σ),
        (Session.runCommand host jump command).on world =
            (.ok false, world.assigned (String.ofList name) (Value.parse (String.ofList value))) ∧
          Store.HasWritten world.rest.session.store
            (world.assigned (String.ofList name)
              (Value.parse (String.ofList value))).rest.session.store
            (String.ofList name) value := by
  refine ⟨Script.commandOf line, ?_, fun host jump world => ⟨?_, Store.hasWritten_set _ _ _⟩⟩
  · rw [Script.commands_of_getElem? hnode hpassage, Script.Passage.commands_eq_map,
      List.getElem?_map, hline]
    rfl
  · exact Session.runCommand_of_isAssignment host jump hassignment world

/-- A script that sets a variable to an integer in digits of two scripts, with blanks of two kinds
around it. -/
theorem assignment_stored_gold :
    let text := "Ann:\nHi.\n@set  gold \t ١_000  \n"
    let world : World (List (Notice × Store)) := { bus := {}, rest := { host := [] } }
    ∃ command, (Script.compile {} text).graph.nodes[0]?.bind (·.commands[0]?) = some command ∧
      ∃ after, (Session.runCommand Host.recorder (Session.jumpNow Host.recorder) command).on world =
          (.ok false, after) ∧
        after.rest.session.store.getTyped .int "gold" .nothing .none =
          .ok (.value (.int 1000)) := by
  intro text world
  have hnode : (Script.compile {} text).graph.nodes[0]? = some
      { tag := "start", speaker := "Ann", text := "Hi.",
        commands := [⟨"set", some "gold \t ١_000"⟩] } := by
    decide +kernel
  have hpassage : (Script.contents {} text)[0]? =
      some ["Ann:".toList, "Hi.".toList, "@set  gold \t ١_000  ".toList] := by
    decide +kernel
  have hline :
      (Script.Passage.commandLines {}
        ["Ann:".toList, "Hi.".toList, "@set  gold \t ١_000  ".toList])[0]? =
      some "@set  gold \t ١_000  ".toList := by
    decide +kernel
  have hassignment :
      Line.IsAssignment "@set  gold \t ١_000  ".toList "gold".toList "١_000".toList :=
    ⟨[], "  ".toList, " \t ".toList, "  ".toList, by simp [IsGap], by decide, by decide, by decide,
      by decide, by decide, ⟨'١', by decide, by decide⟩, by decide, by decide⟩
  have hinteger : Decimal.IsInteger (trim "١_000".toList) 1000 :=
    ⟨[], false, "١_000".toList, [1, 0, 0, 0], .none,
      .underscore (by decide) (.cons (by decide) (.cons (by decide) (.digit (by decide)))),
      by decide, by decide,
      by decide⟩
  obtain ⟨command, hcommand, hrun⟩ := assignment_stored hnode hpassage hline hassignment
  obtain ⟨hon, hstored⟩ := hrun Host.recorder (Session.jumpNow Host.recorder) world
  exact ⟨command, by rw [hnode]; exact hcommand, _, hon,
    hstored.integer 1000 .nothing .none hinteger⟩

end Colloquy
