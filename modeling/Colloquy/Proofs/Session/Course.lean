import Colloquy.Proofs.Session.Beats

/-!
# The course of a move

In front of a host that does not call back, what a move does depends on the session alone. Its
course is the list of its beats. Entering a node runs its commands first if it offers choices; a
command that jumps is followed by the beats of entering the next node. How many more jumps may be
begun is an argument of the recursion, as it is of the action.

`Journal.of` puts the courses of several moves after each other.
-/

namespace Colloquy

/-- How a command takes the session away from its node. -/
inductive Exit where
  /-- It closes the session. -/
  | close
  /-- It jumps to the node at a place. -/
  | toward (tag : String) (index : Nat)

/-- What becomes of the commands after one. -/
inductive Turn where
  /-- They have their turn. -/
  | stays
  /-- They have their turn, though the command asked for a node that there is not. -/
  | misses (tag : String)
  /-- They do not. -/
  | departs (exit : Exit)

/-- What becomes of the commands after one. -/
def Command.turn (graph : Graph) (store : Store) (command : Command) : Turn :=
  match command.work store with
  | .plain _ _ => .stays
  | .close => .departs .close
  | .jump tag =>
    match graph.indexOf? tag with
    | none => .misses tag
    | some index => .departs (.toward tag index)

/-- Beats, and whether one of them took the session away from its node. -/
abbrev Course := List Beat × Bool

namespace Course

/-- A course with beats before it. -/
def after (course : Course) (beats : List Beat) : Course :=
  (beats ++ course.1, course.2)

section Nodes

variable (staging : Staging)

/-- The course of commands. `leap` gives the beats of a jump. -/
def commands (leap : String → Nat → Session → List Beat) : List Command → Session → Course
  | [], _ => ([], false)
  | command :: rest, session =>
    match command.turn staging.graph session.store with
    | .stays => (commands leap rest ((Beat.ran command).apply session)).after [.ran command]
    | .misses tag =>
      (commands leap rest ((Beat.ran command).apply session)).after [.ran command, .missed tag]
    | .departs .close => ([.ran command, .finished], true)
    | .departs (.toward tag index) => (.ran command :: leap tag index session, true)

/-- The course of the commands of a node that is entered. They run if the node offers choices and
they have not been started before. -/
def entry (leap : String → Nat → Session → List Beat) (placed : Placed) (started : Bool)
    (session : Session) : Course :=
  if placed.node.hasChoices && ! started then
    commands staging leap placed.node.commands session
  else ([], false)

/-- The beats of entering the node at a place. -/
def entering (leap : String → Nat → Session → List Beat) (index : Nat) (again : Bool)
    (session : Session) : List Beat :=
  match staging.at? index with
  | none => []
  | some placed =>
    let entered := Beat.entered index placed again
    let course := entry staging leap placed (again && session.hasRun) (entered.apply session)
    entered :: course.1 ++ if course.2 then [] else [.shown placed.node]

/-- The beats of a jump to the node with a tag, when `left` more jumps may be begun. -/
def leaping : Nat → String → Nat → Session → List Beat
  | 0, tag, _, _ => [.tripped tag, .finished]
  | left + 1, _, index, session =>
    .leapt :: entering staging (leaping left) index false (Beat.leapt.apply session) ++ [.landed]

/-- The beats of a jump to the node with a tag, as far as the jumps under way leave room. -/
def jumping (tag : String) (index : Nat) (session : Session) : List Beat :=
  leaping staging (Session.maxJumps - session.pending) tag index session

/-- The beats of a player or a host entering the node at a place. -/
def enter (index : Nat) (again : Bool) (session : Session) : List Beat :=
  entering staging (jumping staging) index again session

/-- The place of the node that comes after the one on screen, if there is one. -/
def following? (placed : Placed) (wrap : Bool) (session : Session) : Option Nat :=
  let after := session.index + 1
  if staging.graph.size ≤ after && ! wrap then none
  else
    let from_ := if staging.graph.size ≤ after then 0 else after
    let index := Session.firstOther session.index placed.mark from_ (staging.marks.drop from_)
    if staging.graph.size ≤ index then none else some index

/-- The beats of going on to the next node. -/
def advancing (placed : Placed) (wrap : Bool) (session : Session) : List Beat :=
  match following? staging placed wrap session with
  | none => [.finished]
  | some index => enter staging index false session

/-- The course of the commands of the node on screen, when the player goes on. -/
def pending (placed : Placed) (session : Session) : Course :=
  if session.hasRun then ([], false)
  else
    (commands staging (jumping staging) placed.node.commands
      (Beat.begun.apply session)).after [.begun]

/-- The beats of going on. -/
def going (wrap : Bool) (session : Session) : List Beat :=
  match session.current with
  | none => if staging.graph.nodes.isEmpty then [] else enter staging 0 false session
  | some placed =>
    let course := pending staging placed session
    course.1 ++
      if course.2 || placed.node.hasChoices then []
      else advancing staging placed wrap (Beat.replay session course.1)

end Nodes

/-- Beats in the bound graph, if there is one. -/
def inGraph (session : Session) (beats : Staging → List Beat) : List Beat :=
  match session.staging with
  | none => []
  | some staging => beats staging

/-- The beats of going to the node with a tag. -/
def seeking (tag : String) (session : Session) : List Beat :=
  inGraph session fun staging =>
    match staging.graph.indexOf? tag with
    | none => [.missed tag]
    | some index => enter staging index false session

/-- The beats of showing the node on screen again. -/
def reloading (session : Session) : List Beat :=
  inGraph session fun staging =>
    if session.current.isSome then enter staging session.index true session else []

end Course

namespace Move

/-- What a move does after the change that it makes directly. -/
def sequel (session : Session) : Move → List Beat
  | .start =>
    Course.inGraph session fun staging =>
      if staging.graph.nodes.isEmpty then [] else Course.enter staging 0 false session
  | .next wrap => Course.inGraph session fun staging => Course.going staging wrap session
  | .jumpTo index =>
    Course.inGraph session fun staging =>
      if 0 ≤ index && index < staging.graph.size then
        Course.enter staging index.toNat false session
      else []
  | .jump tag => Course.seeking tag session
  | .select index =>
    match session.current.filter (·.node.hasChoices) with
    | none => [.unasked]
    | some placed =>
      match if 0 ≤ index then placed.node.choices[index.toNat]? else none with
      | none => []
      | some choice => Course.seeking choice.target session
  | .stop => [.finished]
  | .reload => Course.reloading session
  | .setVariable _ offer =>
    match offer.take with
    | .ok _ => Course.reloading session
    | .error _ => []
  | _ => []

/-- The beats of a move. -/
def beats (move : Move) (session : Session) : List Beat :=
  .called move :: move.sequel (move.opening session)

end Move

/-- The beats of moves that are made in order. -/
def Journal.of : List Move → Session → List Beat
  | [], _ => []
  | move :: moves, session =>
    move.beats session ++ Journal.of moves (Beat.replay session (move.beats session))

end Colloquy
