import Colloquy.Session.Play

/-!
# The screen

What a session shows on a terminal. A speech stands behind the name of its speaker, choices are
numbered from one, and commands that the session does not know itself stand in angle brackets.
-/

namespace Colloquy.Terminal

/-- A terminal while a graph is played on it. -/
structure Screen where
  /-- Who speaks. -/
  speaker : String := ""
  /-- Whether the end has been shown. -/
  ended : Bool := false
  /-- Everything written so far. -/
  text : String := ""
  deriving DecidableEq, Repr

namespace Screen

/-- Writes something. -/
def write (screen : Screen) (text : String) : Screen :=
  { screen with text := screen.text ++ text }

/-- A choice with its number. -/
def choiceLine (number : Nat) (choice : Choice) : String :=
  s!"  {number}) {choice.text}\n"

/-- Shows what a session tells. -/
def tell (screen : Screen) : Notice → Screen
  | .speaker name => { screen with speaker := name }
  | .speech text =>
    if screen.speaker.isEmpty then screen.write s!"{text}\n"
    else screen.write s!"{screen.speaker}: {text}\n"
  | .choices choices =>
    screen.write (String.join
      ((choices.zipIdx 1).map fun (choice, number) => choiceLine number choice))
  | .command command => screen.write s!"  <{command.text}>\n"
  | .print text => screen.write s!"  [print] {text}\n"
  | .completed => { screen with ended := true }.write "-- end --\n"

end Screen

/-- An answer that looks like a number and is none. -/
structure BadAnswer where
  answer : List Char
  failure : Decimal.IntFailure
  deriving DecidableEq, Repr

/-- The most characters of an answer that a message shows. -/
def maxShown : Nat := 200

/-- A bad answer in words. -/
def BadAnswer.message (bad : BadAnswer) : String :=
  match bad.failure with
  | .malformed =>
    "invalid literal for int() with base 10: " ++
      String.ofList ((Chars.quoted bad.answer).take maxShown)
  | .tooLong digits => Decimal.tooLongMessage digits

/-- Something done while a graph is played on a terminal. -/
abbrev Playing := Act Screen BadAnswer

/-- The terminal as what is around a session. Nothing listens on the bus. -/
def host : Host Screen BadAnswer where
  handle notice :=
    modify fun world =>
      { world with rest := { world.rest with host := world.rest.host.tell notice } }
  listen _ event world := ⟨world, event.consumed, false⟩

/-- The screen. -/
def screen : Playing Screen := do
  return (← get).rest.host

/-- Writes on the screen. -/
def put (text : String) : Playing Unit :=
  modify fun world =>
    { world with rest := { world.rest with host := world.rest.host.write text } }

end Colloquy.Terminal
