import Colloquy.Chars.Split

/-!
# Nodes

A node is one beat of a dialogue: who speaks, what is said, the commands that run after it, and the
choices that the player is offered.
-/

namespace Colloquy

/-- An instruction, with everything after its name as one text. -/
structure Command where
  name : String
  parameter : Option String := none
  deriving DecidableEq, Repr, Inhabited

/-- A branch that the player may take: its label and the tag of the node it leads to. -/
structure Choice where
  text : String
  target : String
  deriving DecidableEq, Repr, Inhabited

/-- The item at a place of a list; negative places count from the end. -/
def itemAt? {α : Type} (items : List α) (index : Int) : Option α :=
  let place := if index < 0 then index + items.length else index
  if place < 0 then none else items[place.toNat]?

/-- Says that a list does not have the place asked for. -/
def outOfRangeMessage : String :=
  "tuple index out of range"

/-- The largest place that a list may have. -/
def maxIndex : Int := 9223372036854775807

/-- Says that a list does not have a place, or that no list may have it. -/
def missingPlaceMessage (index : Int) : String :=
  if -maxIndex - 1 ≤ index && index ≤ maxIndex then outOfRangeMessage
  else "cannot fit 'int' into an index-sized integer"

/-- One beat of a dialogue. The tag names it as the target of jumps and choices; narration has an
empty speaker. -/
structure Node where
  tag : String
  speaker : String := ""
  text : String := ""
  commands : List Command := []
  choices : List Choice := []
  deriving DecidableEq, Repr, Inhabited

namespace Command

/-- The words of the parameter. -/
def arguments (command : Command) : List String :=
  (Chars.words (command.parameter.getD "").toList).map String.ofList

/-- The command as a script line shows it. -/
def text (command : Command) : String :=
  match command.parameter with
  | none => "@" ++ command.name
  | some parameter => "@" ++ command.name ++ " " ++ parameter

/-- The tag that a command jumps to, if it is a jump and names one. -/
def jumpTarget? (command : Command) : Option String :=
  if command.name == "jump" || command.name == "jumpif" then command.arguments.head? else none

end Command

namespace Node

/-- Whether the node offers choices. -/
def hasChoices (node : Node) : Bool :=
  ! node.choices.isEmpty

/-- The choice at a place; negative places count from the end. -/
def choiceAt? (node : Node) (index : Int) : Option Choice :=
  itemAt? node.choices index

/-- Whether the node has commands. -/
def hasCommands (node : Node) : Bool :=
  ! node.commands.isEmpty

/-- The tags that the node points at, those of its choices before those of its commands. -/
def targets (node : Node) : List String :=
  node.choices.map (·.target) ++ node.commands.filterMap Command.jumpTarget?

end Node

end Colloquy
