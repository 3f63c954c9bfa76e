/-!
# Log entries

What the parts of the library have to say about their work, apart from their results.
-/

namespace Colloquy

/-- How much an entry matters. -/
inductive Level where
  | debug
  | info
  | warning
  | error
  deriving DecidableEq, Repr

/-- The part of the library that speaks. -/
inductive Origin where
  | compiler
  | playback
  | persistence
  | bus
  | library
  | commandLine
  deriving DecidableEq, Repr

/-- One message. -/
structure LogEntry where
  level : Level
  origin : Origin
  message : String
  deriving DecidableEq, Repr

/-- The name of a level. -/
def Level.name : Level → String
  | .debug => "DEBUG"
  | .info => "INFO"
  | .warning => "WARNING"
  | .error => "ERROR"

/-- The rank of a level; a reader who asks for a level sees that rank and those above it. -/
def Level.rank : Level → Nat
  | .debug => 0
  | .info => 1
  | .warning => 2
  | .error => 3

/-- The name under which a part of the library speaks. -/
def Origin.name : Origin → String
  | .compiler => "dialogue.compiler"
  | .playback => "dialogue.playback"
  | .persistence => "dialogue.persistence"
  | .bus => "engine.core.events"
  | .library => "engine.resources.database"
  | .commandLine => "dialogue.cli"

/-- The line that a terminal shows. -/
def LogEntry.line (entry : LogEntry) : String :=
  s!"{entry.level.name} {entry.origin.name}: {entry.message}"

end Colloquy
