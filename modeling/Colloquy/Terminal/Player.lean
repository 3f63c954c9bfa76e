import Colloquy.Terminal.Screen

/-!
# Playing on a terminal

The player sees a prompt, types a line, and sees what comes of it. Where choices are open, the
line is the number of a choice; elsewhere any line goes on. A line that says `q` or `quit` leaves,
and so does the end of the input.
-/

namespace Colloquy.Terminal

/-- The lines of an input. A line feed ends a line; nothing after the last one is no line. -/
def inputLines (input : String) : List (List Char) :=
  let lines := Chars.lines input.toList
  if lines.getLast? = some [] then lines.dropLast else lines

/-- The words that leave. Letters count as small ones. -/
def leaves (answer : List Char) : Bool :=
  let small := answer.map Char.toLower
  small = ['q'] || small = ['q', 'u', 'i', 't']

/-- The place of the choice that an answer picks out of `count` choices, if it picks one. -/
def pick (count : Nat) (answer : List Char) : Except BadAnswer (Option Nat) :=
  if answer.isEmpty || ! answer.all Chars.isDigit then .ok none
  else
    match Decimal.readInt answer with
    | .error failure => .error ⟨answer, failure⟩
    | .ok number =>
      .ok (if 1 ≤ number && number ≤ count then some (number.toNat - 1) else none)

/-- The choices that are open. -/
def openChoices (session : Session) : List Choice :=
  (session.current.map (·.node.choices)).getD []

/-- What a session waits for. -/
def prompt (session : Session) : String :=
  if (openChoices session).isEmpty then "(enter) " else "> "

/-- Reacts to an answer. -/
def react (answer : List Char) : Playing Unit := do
  let choices := openChoices (← Act.session)
  if choices.isEmpty then Session.next host
  else
    match pick choices.length answer with
    | .error bad => throw (.host bad)
    | .ok (some index) => Session.select host index
    | .ok none => put s!"Pick 1-{choices.length}.\n"

/-- Shows the prompt, unless the end has been shown, and says whether a line is awaited. -/
def ask : Playing Bool := do
  if (← screen).ended then return false
  else
    put (prompt (← Act.session))
    return true

/-- Takes a line and says whether the player stays. -/
def takeLine (line : List Char) : Playing Bool := do
  let answer := Chars.trim line
  if leaves answer then return false
  else
    react answer
    return true

/-- Plays on with the lines that are left. -/
def playOn : List (List Char) → Playing Unit
  | [] => do
    let _ ← ask
  | line :: lines => do
    if ← ask then
      if ← takeLine line then playOn lines

/-- Plays from the start. -/
def playAll (lines : List (List Char)) : Playing Unit := do
  Session.start host
  playOn lines

/-- The state before a graph is played, when something has been logged before. -/
def initial (graph : Graph) (log : List LogEntry) : World Screen :=
  ⟨{}, { session := { staging := some (.ofGraph graph) }, log, host := {} }⟩

end Colloquy.Terminal
