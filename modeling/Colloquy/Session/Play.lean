import Colloquy.Session.Basic
import Colloquy.Value.Parse

/-!
# Playing a graph

Entering a node shows its speaker and its speech, and its choices if it has any. The commands of a
node run once for every visit: those of a node with choices before it is shown, those of other
nodes when the player goes on. A command may end the session or jump to another node; then the
commands after it do not run.

Jumps of nodes with choices nest. At most `maxJumps` of them may be under way; a further one ends
the session. The number of jumps that are left is an argument of the recursion, so every action
ends.
-/

namespace Colloquy

namespace Session

/-- The most jumps by commands that may be under way. -/
def maxJumps : Nat := 64

variable {σ ε : Type} (host : Host σ ε)

/-! ## Showing -/

/-- Tells the handler. -/
def tell (notice : Notice) : Act σ ε Unit :=
  host.handle notice

/-- Reports a listener that failed. -/
def reportFailure (kind : Notice.Kind) (scene : Scene σ) : Scene σ :=
  { scene with
    log := scene.log ++
      [⟨.error, .bus, s!"Error in event handler for DialogueEvent.{kind.name}"⟩] }

/-- Publishes a notice on the bus. -/
def publish (notice : Notice) : Act σ ε Unit := do
  let event : Event Notice.Kind Notice := ⟨notice.kind, notice, false⟩
  match (← get).publish ⟨host.listen, reportFailure⟩ host.patience event with
  | some (_, world) => set world
  | none => throw .endless

/-- Rewinds to the first node without showing anything. -/
def rewound (session : Session) : Session :=
  { session with index := 0, current := none, hasRun := false }

/-- Shows the end and rewinds. -/
def complete : Act σ ε Unit := do
  tell host .completed
  publish host .completed
  Act.modifySession rewound

/-- The text of a node with the variables in it. -/
def resolveIn (session : Session) (text : String) : String :=
  Reference.resolve session.store.display text

/-- Shows a node. -/
def present (node : Node) : Act σ ε Unit := do
  let session ← Act.session
  let speaker := session.resolveIn node.speaker
  let speech := session.resolveIn node.text
  tell host (.speaker speaker)
  tell host (.speech speech)
  publish host (.speaker speaker)
  publish host (.speech speech)
  if node.hasChoices then
    let session ← Act.session
    let choices := node.choices.map fun choice =>
      { choice with text := session.resolveIn choice.text }
    tell host (.choices choices)
    publish host (.choices choices)

/-! ## Commands -/

/-- Says how a command is used. -/
def usage (command : Command) (form : String) : Act σ ε Unit :=
  Act.log .error
    s!"Dialogue script: invalid use of command '{command.text}'. Usage: {form}"

/-- Stores what the author wrote after the name of a variable. -/
def assign (command : Command) (name : String) : Act σ ε Unit := do
  let value :=
    Value.parse (String.ofList (Chars.afterWord (command.parameter.getD "").toList))
  Act.modifySession fun session => { session with store := session.store.set name value }
  Act.log .debug s!"Dialogue variable set: {name} = {value.display}"

/-- Runs a command and says whether it ended the session or moved it. `jump` jumps to the node
with a tag and says whether it did. -/
def runCommand (jump : String → Act σ ε Bool) (command : Command) : Act σ ε Bool := do
  match command.name, command.arguments with
  | "close", _ => complete host; return true
  | "closeif", [] => usage command "@closeif <flag>"; return false
  | "closeif", flag :: _ =>
    if (← Act.session).store.contains flag then
      complete host
      return true
    else return false
  | "jump", [] => usage command "@jump <tag>"; return false
  | "jump", tag :: _ => jump tag
  | "jumpif", tag :: flag :: _ =>
    if (← Act.session).store.contains flag then jump tag else return false
  | "jumpif", _ => usage command "@jumpif <tag> <flag>"; return false
  | "set", name :: _ :: _ => assign command name; return false
  | "set", _ => usage command "@set <name> <value...>"; return false
  | "flag", [] => usage command "@flag <name>"; return false
  | "flag", name :: _ =>
    Act.modifySession fun session =>
      { session with store := session.store.set name (.bool true) }
    return false
  | "unset", [] => usage command "@unset <name>"; return false
  | "unset", name :: _ =>
    Act.modifySession fun session => { session with store := session.store.erase name }
    return false
  | "print", _ =>
    let text := (← Act.session).resolveIn (command.parameter.getD "")
    Act.log .info s!"Dialogue print: {text}"
    tell host (.print text)
    publish host (.print text)
    return false
  | _, _ =>
    tell host (.command command)
    publish host (.command command)
    return false

/-- Runs commands in order until one ends or moves the session, and says whether one did. -/
def runList (jump : String → Act σ ε Bool) : List Command → Act σ ε Bool
  | [] => return false
  | command :: commands => do
    if ← runCommand host jump command then return true else runList jump commands

/-- Runs the commands of the node on screen, unless they have been started before. -/
def runPending (jump : String → Act σ ε Bool) : Act σ ε Bool := do
  let session ← Act.session
  match session.current with
  | none => return false
  | some placed =>
    if session.hasRun then return false
    else
      Act.modifySession fun session => { session with hasRun := true }
      runList host jump placed.node.commands

/-! ## Entering nodes -/

/-- Puts the node at a place on screen. A node that is shown again keeps the mark that its
commands have run. -/
def enterWith (jump : String → Act σ ε Bool) (index : Nat) (again : Bool) : Act σ ε Unit := do
  match (← Act.session).staging.bind (·.at? index) with
  | none => throw .outOfRange
  | some placed =>
    Act.modifySession fun session =>
      { session with index, current := some placed, hasRun := again && session.hasRun }
    let moved ← if placed.node.hasChoices then runPending host jump else pure false
    if moved then return else present host placed.node

/-- Says that no node has a tag. -/
def missingTarget (tag : String) : Act σ ε Unit :=
  Act.log .warning s!"Dialogue jump target not found: [{tag}]"

/-- The place of the node with a tag in the bound graph. -/
def placeOf? (tag : String) : Act σ ε (Option Nat) := do
  match (← Act.session).staging with
  | none => throw .nodeGone
  | some staging => return staging.graph.indexOf? tag

/-- Jumps to the node with a tag on behalf of a command, when `left` more jumps may be begun. -/
def commandJump : Nat → String → Act σ ε Bool
  | 0, tag => do
    match ← placeOf? tag with
    | none => missingTarget tag; return false
    | some _ =>
      Act.log .error s!"Dialogue jump loop detected at [{tag}]; stopping playback"
      complete host
      return true
  | left + 1, tag => do
    match ← placeOf? tag with
    | none => missingTarget tag; return false
    | some index =>
      Act.modifySession fun session => { session with pending := session.pending + 1 }
      (enterWith host (commandJump left) index false).thenAlways fun session =>
        { session with pending := session.pending - 1 }
      return true

/-- Jumps on behalf of a command, as far as the jumps under way leave room. -/
def jumpNow (tag : String) : Act σ ε Bool := do
  commandJump host (maxJumps - (← Act.session).pending) tag

/-- Puts the node at a place on screen. -/
def enter (index : Nat) (again : Bool := false) : Act σ ε Unit :=
  enterWith host (jumpNow host) index again

/-! ## What a player and a host can do -/

/-- The bound graph. -/
def bound : Act σ ε Staging := do
  match (← Act.session).staging with
  | none => throw .noGraph
  | some staging => return staging

/-- Rewinds to the first node without showing anything, and deletes the variables if they are to be
forgotten. -/
def reset (forget : Bool := false) : Act σ ε Unit :=
  Act.modifySession fun session =>
    let session := rewound session
    if forget then { session with store := .empty } else session

/-- Binds the session to a graph and resets it. -/
def bind (staging : Staging) (forget : Bool := false) : Act σ ε Unit := do
  Act.modifySession fun session => { session with staging := some staging }
  reset forget

/-- Enters the first node. -/
def start : Act σ ε Unit := do
  if (← bound).graph.nodes.isEmpty then throw (.emptyGraph true) else enter host 0

/-- The first place from `index` on whose mark is not the given one. The place `cursor` always
counts. -/
def firstOther (cursor mark : Nat) : Nat → List Nat → Nat
  | index, [] => index
  | index, other :: marks =>
    if index ≠ cursor && other = mark then firstOther cursor mark (index + 1) marks else index

/-- Goes on to the node after the one on screen. After the last one, the session ends, or starts
again if it wraps around. -/
def advance (staging : Staging) (placed : Placed) (wrap : Bool) : Act σ ε Unit := do
  let session ← Act.session
  let after := session.index + 1
  if staging.graph.size ≤ after && ! wrap then complete host
  else
    let from_ := if staging.graph.size ≤ after then 0 else after
    let index := firstOther session.index placed.mark from_ (staging.marks.drop from_)
    if staging.graph.size ≤ index then complete host else enter host index

/-- Goes on. The commands of the node on screen run first. A node that waits for a choice stays. -/
def next (wrap : Bool := false) : Act σ ε Unit := do
  let staging ← bound
  match (← Act.session).current with
  | none =>
    if staging.graph.nodes.isEmpty then throw (.emptyGraph false) else enter host 0
  | some _ =>
    if ← runPending host (jumpNow host) then return
    else
      match (← Act.session).current with
      | none => throw .nodeGone
      | some placed =>
        if placed.node.hasChoices then return else advance host staging placed wrap

/-- Enters the node at a place. -/
def jumpTo (index : Int) : Act σ ε Unit := do
  let count := (← bound).graph.size
  if 0 ≤ index && index < count then enter host index.toNat else throw (.invalidJump index count)

/-- Enters the node with a tag, if there is one. -/
def jump (tag : String) : Act σ ε Unit := do
  match (← bound).graph.indexOf? tag with
  | none => missingTarget tag
  | some index => enter host index

/-- Takes one of the choices on screen. -/
def select (index : Int) : Act σ ε Unit := do
  match (← Act.session).current.filter (·.node.hasChoices) with
  | none => Act.log .warning "select_choice() called while no choice is open"
  | some placed =>
    let choices := placed.node.choices
    match if 0 ≤ index then choices[index.toNat]? else none with
    | none => throw (.invalidChoice index choices.length)
    | some choice => jump host choice.target

/-- Ends the session. -/
def stop : Act σ ε Unit :=
  complete host

/-- Shows the node on screen again. -/
def reload : Act σ ε Unit := do
  let session ← Act.session
  if session.current.isSome then enter host session.index true

/-- Sets a variable and shows the node on screen again. -/
def setVariable (name : String) (offer : Offer) : Act σ ε Unit := do
  match offer.take with
  | .error refusal => throw (.unsupported refusal)
  | .ok value =>
    Act.modifySession fun session =>
      { session with store := session.store.set name value }
    reload host

/-- Deletes a variable. -/
def removeVariable (name : String) : Act σ ε Unit :=
  Act.modifySession fun session => { session with store := session.store.erase name }

end Session

end Colloquy
