import Colloquy.Chars.Quoted
import Colloquy.Decimal.Notation

/-!
# Warnings

Nothing in a script stops the compiler. What it cannot use, it reports, and goes on.
-/

namespace Colloquy.Script

/-- What the compiler reports. -/
inductive Complaint where
  /-- A second tag line before the block has a body. -/
  | tagReplaced (old new : String)
  /-- A tag line after the last block. -/
  | tagUnused (tag : String)
  /-- A tag that another node has. -/
  | tagTaken (tag renamed : String)
  /-- A tag line without a tag between its brackets. -/
  | tagMalformed
  /-- A speaker line without a speaker. -/
  | speakerMalformed
  /-- A command line without a name. -/
  | commandUnnamed
  /-- A command line among choices. -/
  | commandInChoices
  | commandsFull (limit : Int) (name : String)
  | choicesFull (limit : Int) (label : String)
  | nodesFull (limit : Int)
  /-- A label where the one before has no target yet. -/
  | labelReplaced (label : String)
  /-- A list of choices that ends with a label. -/
  | labelDropped (label : String)
  /-- A target without a label before it. -/
  | targetUnlabelled (target : String)
  | lineTooLong (limit : Int)
  deriving DecidableEq, Repr

/-- A report in words. -/
def Complaint.message : Complaint → String
  | .tagReplaced old new => s!"tag [{old}] replaced by [{new}]"
  | .tagUnused tag => s!"tag [{tag}] at end of script names no node; ignored"
  | .tagTaken tag renamed => s!"duplicate tag [{tag}] renamed to [{renamed}]"
  | .tagMalformed => "malformed tag attribute"
  | .speakerMalformed => "malformed character block"
  | .commandUnnamed => "command line without a command name; ignored"
  | .commandInChoices => "commands are not allowed inside a choice block; row ignored"
  | .commandsFull limit name => s!"more than {Decimal.intText limit} commands; @{name} dropped"
  | .choicesFull limit label =>
    s!"more than {Decimal.intText limit} choices; {quote label} dropped"
  | .nodesFull limit => s!"more than {Decimal.intText limit} nodes; block dropped"
  | .labelReplaced label => s!"choice {quote label} has no target and was replaced"
  | .labelDropped label => s!"choice {quote label} has no target and was dropped"
  | .targetUnlabelled target => s!"choice target [{target}] has no label; ignored"
  | .lineTooLong limit => s!"line longer than {Decimal.intText limit} characters; truncated"

/-- The line that the compiler is at: its number, counted from one, and its text. After the last
line the number is zero and the text empty. -/
structure Place where
  number : Nat := 0
  source : String := ""
  deriving DecidableEq, Repr

/-- A report and the line that gave rise to it. -/
structure Warning where
  place : Place
  complaint : Complaint
  deriving DecidableEq, Repr

/-- A warning in words, with the number of its line if it has one. -/
def Warning.text (warning : Warning) : String :=
  if 0 < warning.place.number then
    s!"line {warning.place.number}: {warning.complaint.message}"
  else warning.complaint.message

end Colloquy.Script
