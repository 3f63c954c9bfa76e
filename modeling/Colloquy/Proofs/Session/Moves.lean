import Colloquy.Proofs.Session.Hosts
import Colloquy.Session.Stored

/-!
# Moves

A move is one thing that a player or a host can do with a session. `Move.perform` does it, by way
of the actions on sessions. A move may be refused: `Move.refusal?` says when, from the session
alone. Apart from what is shown, some moves change the session directly, and `Move.opening` is
that change.

A state is `Reached` if moves lead to it from a session that has not been played. Between moves
everything but the session may change, and every move may have a host of its own.
-/

namespace Colloquy

/-- Something that a player or a host can do with a session. -/
inductive Move where
  | bind (staging : Staging) (forget : Bool)
  | start
  | next (wrap : Bool)
  | jumpTo (index : Int)
  | jump (tag : String)
  | select (index : Int)
  | stop
  | reset (forget : Bool)
  | reload
  | setVariable (name : String) (offer : Offer)
  | removeVariable (name : String)
  | restore (data : Json) (palette : Value.Palette)

/-- Why a move fails. -/
inductive Setback (ε : Type) where
  | fault (fault : Fault ε)
  | defect (defect : SessionDefect)

namespace Move

variable {σ ε : Type}

/-- Takes an action as a move. -/
def played (act : Act σ ε Unit) (world : World σ) : Except (Setback ε) Unit × World σ :=
  ((act.on world).1.mapError .fault, (act.on world).2)

/-- Makes a move. -/
def perform (host : Host σ ε) (world : World σ) : Move → Except (Setback ε) Unit × World σ
  | .bind staging forget => played (Session.bind staging forget) world
  | .start => played (Session.start host) world
  | .next wrap => played (Session.next host wrap) world
  | .jumpTo index => played (Session.jumpTo host index) world
  | .jump tag => played (Session.jump host tag) world
  | .select index => played (Session.select host index) world
  | .stop => played (Session.stop host) world
  | .reset forget => played (Session.reset forget) world
  | .reload => played (Session.reload host) world
  | .setVariable name offer => played (Session.setVariable host name offer) world
  | .removeVariable name => played (Session.removeVariable name) world
  | .restore data palette =>
    match world.rest.session.restore data palette with
    | .ok session => (.ok (), World.setSession world session)
    | .error defect => (.error (.defect defect), world)

/-- Makes moves in order, whether they fail or not. -/
def performAll (host : Host σ ε) (moves : List Move) (world : World σ) : World σ :=
  moves.foldl (fun world move => (move.perform host world).2) world

end Move

namespace Session

/-- A session at its first node, without its variables if they are to be forgotten. -/
def cleared (forget : Bool) (session : Session) : Session :=
  if forget then { rewound session with store := .empty } else rewound session

end Session

namespace Move

variable {ε : Type}

/-- The change that a move makes directly. -/
def opening (session : Session) : Move → Session
  | .bind staging forget => Session.cleared forget { session with staging := some staging }
  | .reset forget => Session.cleared forget session
  | .setVariable name offer =>
    match offer.take with
    | .ok value => { session with store := session.store.set name value }
    | .error _ => session
  | .removeVariable name => { session with store := session.store.erase name }
  | .restore data palette => (session.restore data palette).toOption.getD session
  | _ => session

/-- Whether a move takes the session back to its first node without showing anything. -/
def rewinds : Move → Bool
  | .bind _ _ => true
  | .reset _ => true
  | .restore data palette => (Session.variablesOf data palette).toOption.isSome
  | _ => false

/-- Why a move is refused, if it is. -/
def refusal? (session : Session) : Move → Option (Setback ε)
  | .start =>
    match session.staging with
    | none => some (.fault .noGraph)
    | some staging =>
      if staging.graph.nodes.isEmpty then some (.fault (.emptyGraph true)) else none
  | .next _ =>
    match session.staging with
    | none => some (.fault .noGraph)
    | some staging =>
      if session.current.isNone && staging.graph.nodes.isEmpty then
        some (.fault (.emptyGraph false))
      else none
  | .jumpTo index =>
    match session.staging with
    | none => some (.fault .noGraph)
    | some staging =>
      if 0 ≤ index && index < staging.graph.size then none
      else some (.fault (.invalidJump index staging.graph.size))
  | .jump _ => if session.staging.isNone then some (.fault .noGraph) else none
  | .select index =>
    match session.current.filter (·.node.hasChoices) with
    | none => none
    | some placed =>
      match if 0 ≤ index then placed.node.choices[index.toNat]? else none with
      | none => some (.fault (.invalidChoice index placed.node.choices.length))
      | some _ => none
  | .setVariable _ offer =>
    match offer.take with
    | .ok _ => none
    | .error refusal => some (.fault (.unsupported refusal))
  | .restore data palette =>
    match session.restore data palette with
    | .ok _ => none
    | .error defect => some (.defect defect)
  | _ => none

end Move

/-! ## States that moves lead to -/

/-- A session that has not been played. -/
def Session.Fresh (session : Session) : Prop :=
  ∃ staging store, session = { staging, store }

variable {σ : Type}

/-- Moves lead to a state, with hosts that do not call back. -/
inductive Reached (ε : Type) : World σ → Prop
  | fresh {world : World σ} : world.rest.session.Fresh → Reached ε world
  | move {world : World σ} {host : Host σ ε} (move : Move) :
    host.Aloof → Reached ε world → Reached ε (move.perform host world).2
  | elsewhere {world other : World σ} :
    other.rest.session = world.rest.session → Reached ε world → Reached ε other

/-! ## The cursor -/

/-- Nothing is on screen, and the session is at its first node. -/
structure Session.Idle (session : Session) : Prop where
  current : session.current = none
  index : session.index = 0
  hasRun : session.hasRun = false

/-- The node on screen is the one at the place of the session in the bound graph. If it offers
choices, its commands have been started. -/
structure Session.Active (session : Session) (staging : Staging) (placed : Placed) : Prop where
  bound : session.staging = some staging
  current : session.current = some placed
  place : staging.at? session.index = some placed
  hasRun : placed.node.hasChoices = true → session.hasRun = true

/-- A session is idle or shows a node. -/
def Session.Sound (session : Session) : Prop :=
  session.Idle ∨ ∃ staging placed, session.Active staging placed

theorem Session.Sound.exists_active {session : Session} (h : session.Sound) {placed : Placed}
    (hcurrent : session.current = some placed) : ∃ staging, session.Active staging placed := by
  rcases h with hidle | ⟨staging, other, hactive⟩
  · rw [hidle.current] at hcurrent
    cases hcurrent
  · obtain rfl : other = placed := Option.some.inj (hactive.current.symm.trans hcurrent)
    exact ⟨staging, hactive⟩

theorem Session.Active.keepStore {session : Session} {staging : Staging} {placed : Placed}
    (h : session.Active staging placed) (store : Store) :
    Session.Active { session with store } staging placed :=
  ⟨h.bound, h.current, h.place, h.hasRun⟩

theorem Session.Sound.keepStore {session : Session} (h : session.Sound) (store : Store) :
    Session.Sound { session with store } := by
  rcases h with hidle | ⟨staging, placed, hactive⟩
  · exact .inl ⟨hidle.current, hidle.index, hidle.hasRun⟩
  · exact .inr ⟨staging, placed, hactive.keepStore store⟩

/-- A session between two moves. -/
structure Session.Settled (session : Session) : Prop where
  sound : session.Sound
  pending : session.pending = 0

end Colloquy
