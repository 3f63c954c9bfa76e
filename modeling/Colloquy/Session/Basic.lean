import Colloquy.Bus.Dispatch
import Colloquy.Graph
import Colloquy.Log
import Colloquy.Reference
import Colloquy.Store

/-!
# Sessions

A session plays one graph. It knows the graph it is bound to, the node that is on screen, whether
that node's commands have run, and the variables.

What a session shows, it tells its handler and publishes on its bus. Both may call back into the
session while they are told something, and may fail. So every action works on the whole state, of
which the session, the bus, the log and the host's own state are parts, and hands the state on
whether it fails or not.
-/

namespace Colloquy

/-! ## Bound graphs -/

/-- A node and its mark. Marks tell nodes apart that are equal in all fields. -/
structure Placed where
  node : Node
  mark : Nat
  deriving DecidableEq, Repr

/-- A graph whose nodes are marked. -/
structure Staging where
  graph : Graph
  marks : List Nat
  /-- Every node has a mark. -/
  sameLength : marks.length = graph.size
  /-- No two nodes have the same mark. -/
  distinct : marks.Nodup

namespace Staging

/-- Marks the nodes of a graph, if the marks are as many as the nodes and all different. -/
def make? (graph : Graph) (marks : List Nat) : Option Staging :=
  if h : marks.length = graph.size ∧ marks.Nodup then some ⟨graph, marks, h.1, h.2⟩ else none

/-- Marks the nodes of a graph with numbers in a row. -/
def ofGraph (graph : Graph) (first : Nat := 0) : Staging where
  graph
  marks := List.range' first graph.size
  sameLength := by simp
  distinct := List.nodup_range'

/-- The node at a place. -/
def at? (staging : Staging) (index : Nat) : Option Placed :=
  match staging.graph.nodes[index]?, staging.marks[index]? with
  | some node, some mark => some ⟨node, mark⟩
  | _, _ => none

theorem at?_eq_some_iff {staging : Staging} {index : Nat} {placed : Placed} :
    staging.at? index = some placed ↔
      staging.graph.nodes[index]? = some placed.node ∧
      staging.marks[index]? = some placed.mark := by
  unfold at?
  split
  · next node mark hnode hmark =>
    rw [hnode, hmark, Option.some.injEq, Option.some.injEq, Option.some.injEq]
    constructor
    · rintro rfl
      exact ⟨rfl, rfl⟩
    · rintro ⟨rfl, rfl⟩
      rfl
  · next hnone =>
    constructor
    · intro h
      cases h
    · rintro ⟨hnode, hmark⟩
      exact absurd hmark (hnone _ _ hnode)

/-- Every place of the graph has a node. -/
theorem exists_at? {staging : Staging} {index : Nat} (h : index < staging.graph.size) :
    ∃ placed, staging.at? index = some placed := by
  have hmark : index < staging.marks.length := staging.sameLength ▸ h
  exact ⟨⟨staging.graph.nodes[index], staging.marks[index]⟩,
    at?_eq_some_iff.2 ⟨List.getElem?_eq_getElem h, List.getElem?_eq_getElem hmark⟩⟩

theorem lt_size_of_at? {staging : Staging} {index : Nat} {placed : Placed}
    (h : staging.at? index = some placed) : index < staging.graph.size :=
  (List.getElem?_eq_some_iff.1 (at?_eq_some_iff.1 h).1).1

end Staging

/-! ## What a session shows -/

/-- Something that a session shows. -/
inductive Notice where
  | speaker (name : String)
  | speech (text : String)
  | choices (choices : List Choice)
  | command (command : Command)
  | completed
  | print (text : String)
  deriving DecidableEq, Repr

/-- The kinds of notices, which are the kinds of events on the bus of a session. -/
inductive Notice.Kind where
  | speaker
  | speech
  | choices
  | command
  | completed
  | print
  deriving DecidableEq, Repr

/-- The kind of a notice. -/
def Notice.kind : Notice → Notice.Kind
  | .speaker _ => .speaker
  | .speech _ => .speech
  | .choices _ => .choices
  | .command _ => .command
  | .completed => .completed
  | .print _ => .print

/-- The name of a kind of events. -/
def Notice.Kind.name : Notice.Kind → String
  | .speaker => "CHARACTER_CHANGED"
  | .speech => "DIALOGUE_CHANGED"
  | .choices => "CHOICES_AVAILABLE"
  | .command => "COMMAND_REQUESTED"
  | .completed => "PLAYBACK_COMPLETED"
  | .print => "PRINT"

/-! ## State -/

/-- A session. -/
structure Session where
  staging : Option Staging := none
  /-- The place of the node on screen. -/
  index : Nat := 0
  /-- The node on screen. -/
  current : Option Placed := none
  /-- Whether the commands of the node on screen have been started. -/
  hasRun : Bool := false
  /-- The number of jumps by commands that have been begun and not ended. -/
  pending : Nat := 0
  /-- The variables. -/
  store : Store := .empty

/-- The parts of the state that belong to neither the bus nor the host. -/
structure Scene (σ : Type) where
  session : Session := {}
  log : List LogEntry := []
  host : σ

/-- The whole state: the bus, the session, the log, and the state of the host. -/
abbrev World (σ : Type) := Live Notice.Kind String Notice (Scene σ)

/-- Why an action fails. -/
inductive Fault (ε : Type) where
  /-- No graph is bound. -/
  | noGraph
  /-- The bound graph has no first node. -/
  | emptyGraph (starting : Bool)
  | invalidJump (index : Int) (count : Nat)
  | invalidChoice (index : Int) (count : Nat)
  | unsupported (refusal : Unsupported)
  /-- The node whose commands ran is no longer on screen. -/
  | nodeGone
  /-- A place that the bound graph does not have. -/
  | outOfRange
  /-- Listeners went on publishing past the bound of the host. There is no such fault in a
  program, which then goes on without end: an action has a result here, so it has to stop. -/
  | endless
  /-- The host failed. -/
  | host (cause : ε)
  deriving Repr

/-- A fault of the session in words. -/
def Fault.message {ε : Type} : Fault ε → String
  | .noGraph => "no dialogue graph bound to this playback"
  | .emptyGraph true => "cannot start playback of an empty dialogue graph"
  | .emptyGraph false => "cannot advance an empty dialogue graph"
  | .invalidJump index count =>
    s!"Invalid jump index {Decimal.intText index} (graph has {count} nodes)"
  | .invalidChoice index count =>
    s!"Invalid choice index {Decimal.intText index} (node has {count} choices)"
  | .unsupported refusal => refusal.message
  | .nodeGone => "the node left the screen while its commands ran"
  | .outOfRange => outOfRangeMessage
  | .endless => "listeners publish without end"
  | .host _ => "the host failed"

/-- Something done to the whole state. -/
abbrev Act (σ ε : Type) := ExceptT (Fault ε) (StateM (World σ))

/-- What is around a session: the handler that is told of notices, and the listeners on the bus. -/
structure Host (σ ε : Type) where
  handle : Notice → Act σ ε Unit
  listen : String → Event Notice.Kind Notice → World σ → Reply (World σ)
  /-- How many listeners and how many events one publication may reach. No program has this bound;
  it is what makes publishing end here, and may be of any size. -/
  patience : Nat := 10000

namespace Act

variable {σ ε : Type}

/-- The session. -/
def session : Act σ ε Session := do
  return (← get).rest.session

/-- Changes the session. -/
def modifySession (change : Session → Session) : Act σ ε Unit :=
  modify fun world =>
    { world with rest := { world.rest with session := change world.rest.session } }

/-- Adds an entry to the log. -/
def log (level : Level) (message : String) : Act σ ε Unit :=
  modify fun world =>
    { world with
      rest := { world.rest with log := world.rest.log ++ [⟨level, .playback, message⟩] } }

/-- Does something and then changes the session, even if it failed. -/
def thenAlways {α : Type} (act : Act σ ε α) (change : Session → Session) : Act σ ε α :=
  ExceptT.mk fun world =>
    let (result, world) := act.run.run world
    (result, { world with rest := { world.rest with session := change world.rest.session } })

end Act

end Colloquy
