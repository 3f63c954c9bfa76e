import Colloquy.Proofs.Bus.Publishing
import Colloquy.Session.Play

/-!
# Hosts that do not call back

An action works on the whole state, and what a session shows goes to a host that may change all of
it. This file names the hosts that theorems are about: an aloof host never changes the session, a
quiet one does not fail either, and one with a record has noted all that its handler was told.

Whatever a session lets out is a `Signal`: something for the handler, for the bus or for the log.
Sending signals to an aloof host leaves the session as it was, whether it succeeds or not.
-/

namespace Colloquy

variable {σ ε α β : Type}

namespace World

/-- The world with another session. -/
def setSession (world : World σ) (session : Session) : World σ :=
  { world with rest := { world.rest with session } }

@[simp] theorem setSession_session (world : World σ) (session : Session) :
    (setSession world session).rest.session = session := rfl

theorem setSession_self (world : World σ) : setSession world world.rest.session = world := rfl

end World

/-! ## Running an action -/

namespace Act

/-- What comes of an action in a world. -/
def on (act : Act σ ε α) (world : World σ) : Except (Fault ε) α × World σ :=
  act.run.run world

@[simp] theorem on_pure (a : α) (world : World σ) :
    (pure a : Act σ ε α).on world = (.ok a, world) := rfl

theorem on_bind (act : Act σ ε α) (next : α → Act σ ε β) (world : World σ) :
    (act >>= next).on world =
      match act.on world with
      | (.ok a, world) => (next a).on world
      | (.error fault, world) => (.error fault, world) := by
  simp only [on, ExceptT.run, bind, ExceptT.bind, ExceptT.mk, StateT.run, StateT.bind,
    ExceptT.bindCont]
  rcases (act world : Except (Fault ε) α × World σ) with ⟨_ | _, _⟩ <;> rfl

@[simp] theorem on_get (world : World σ) :
    (get : Act σ ε (World σ)).on world = (.ok world, world) := rfl

@[simp] theorem on_session (world : World σ) :
    (session : Act σ ε Session).on world = (.ok world.rest.session, world) := rfl

@[simp] theorem on_modifySession (change : Session → Session) (world : World σ) :
    (modifySession change : Act σ ε Unit).on world =
      (.ok (), World.setSession world (change world.rest.session)) := rfl

theorem on_log (level : Level) (message : String) (world : World σ) :
    (log level message : Act σ ε Unit).on world =
      (.ok (), { world with
        rest := { world.rest with log := world.rest.log ++ [⟨level, .playback, message⟩] } }) := rfl

theorem on_thenAlways (act : Act σ ε α) (change : Session → Session) (world : World σ) :
    (act.thenAlways change).on world =
      ((act.on world).1,
        World.setSession (act.on world).2 (change (act.on world).2.rest.session)) := rfl

end Act

/-! ## Hosts -/

/-- Neither the handler nor a listener changes the session. They may fail, and change anything
else. -/
structure Host.Aloof (host : Host σ ε) : Prop where
  handle : ∀ notice world,
    ((host.handle notice).on world).2.rest.session = world.rest.session
  listen : ∀ name event world,
    (host.listen name event world).state.rest.session = world.rest.session

/-- In a calm state, neither the handler fails nor a publication goes on without end, and the
state stays calm. -/
structure Host.Quiet (host : Host σ ε) (calm : Bus Notice.Kind String Notice → σ → Prop) : Prop
    extends host.Aloof where
  handle_calm : ∀ notice world, calm world.bus world.rest.host →
    ((host.handle notice).on world).1 = .ok () ∧
      calm ((host.handle notice).on world).2.bus ((host.handle notice).on world).2.rest.host
  publish_calm : ∀ notice world, calm world.bus world.rest.host →
    ((Session.publish host notice).on world).1 = .ok () ∧
      calm ((Session.publish host notice).on world).2.bus
        ((Session.publish host notice).on world).2.rest.host

/-- The handler has a record of all it was told, each with the variables of that moment, and
listeners do not write into it. -/
structure Host.Records (host : Host σ ε) (heard : σ → List (Notice × Store)) : Prop where
  handle : ∀ notice world, heard ((host.handle notice).on world).2.rest.host =
    heard world.rest.host ++ [(notice, world.rest.session.store)]
  listen : ∀ name event world,
    heard (host.listen name event world).state.rest.host = heard world.rest.host

/-! ## Signals -/

/-- Something that a session lets out. -/
inductive Signal where
  | tell (notice : Notice)
  | publish (notice : Notice)
  | log (level : Level) (message : String)
  deriving DecidableEq, Repr

/-- What the handler is told by a signal. -/
def Signal.told? : Signal → Option Notice
  | .tell notice => some notice
  | _ => none

namespace Session

variable (host : Host σ ε)

/-- Lets a signal out. -/
def send : Signal → Act σ ε Unit
  | .tell notice => tell host notice
  | .publish notice => publish host notice
  | .log level message => Act.log level message

/-- Lets signals out in order. -/
def sendAll : List Signal → Act σ ε Unit
  | [] => pure ()
  | signal :: signals => do
    send host signal
    sendAll signals

variable {host}

theorem publish_keeps {P : Scene σ → Prop} {notice : Notice} {world : World σ}
    (hlisten : ∀ name event (world : World σ), P world.rest →
      P (host.listen name event world).state.rest)
    (hlog : ∀ (scene : Scene σ) log, P scene → P { scene with log }) (hworld : P world.rest) :
    P ((publish host notice).on world).2.rest := by
  have hkeeps : Live.Keeps ⟨host.listen, reportFailure⟩ P :=
    ⟨hlisten, fun kind scene hscene => hlog scene _ hscene⟩
  simp only [publish, Act.on_bind, Act.on_get]
  split
  · next hpublish => exact Live.publish_keeps hkeeps hpublish hworld
  · exact hworld

theorem send_session (hhost : host.Aloof) (signal : Signal) (world : World σ) :
    ((send host signal).on world).2.rest.session = world.rest.session := by
  cases signal with
  | tell notice => exact hhost.handle notice world
  | publish notice =>
    exact publish_keeps (P := fun scene => scene.session = world.rest.session)
      (fun name event world' h => (hhost.listen name event world').trans h) (fun _ _ h => h) rfl
  | log level message => rfl

theorem send_heard {heard : σ → List (Notice × Store)} (hhost : host.Records heard)
    (signal : Signal) (world : World σ) :
    heard ((send host signal).on world).2.rest.host =
      heard world.rest.host ++ signal.told?.toList.map (·, world.rest.session.store) := by
  cases signal with
  | tell notice => exact hhost.handle notice world
  | publish notice =>
    refine (publish_keeps (P := fun scene => heard scene.host = heard world.rest.host)
      (fun name event world' h => (hhost.listen name event world').trans h) (fun _ _ h => h)
      rfl).trans ?_
    simp [Signal.told?]
  | log level message => simp [send, Act.on_log, Signal.told?]

theorem send_calm {calm : Bus Notice.Kind String Notice → σ → Prop} (hhost : host.Quiet calm)
    (signal : Signal) {world : World σ} (hcalm : calm world.bus world.rest.host) :
    ((send host signal).on world).1 = .ok () ∧
      calm ((send host signal).on world).2.bus ((send host signal).on world).2.rest.host := by
  cases signal with
  | tell notice => exact hhost.handle_calm notice world hcalm
  | publish notice => exact hhost.publish_calm notice world hcalm
  | log level message => exact ⟨rfl, hcalm⟩

theorem sendAll_session (hhost : host.Aloof) (signals : List Signal) (world : World σ) :
    ((sendAll host signals).on world).2.rest.session = world.rest.session := by
  induction signals generalizing world with
  | nil => rfl
  | cons signal signals ih =>
    have hsend := send_session hhost signal world
    rw [sendAll, Act.on_bind]
    split
    · next hon => rw [ih, ← hsend, hon]
    · next hon => rw [← hsend, hon]

theorem sendAll_append (first second : List Signal) (world : World σ) :
    (sendAll host (first ++ second)).on world =
      (sendAll host first >>= fun _ => sendAll host second).on world := by
  induction first generalizing world with
  | nil => rfl
  | cons signal first ih =>
    rw [List.cons_append, sendAll, sendAll, Act.on_bind, Act.on_bind, Act.on_bind]
    split
    · next hon => rw [ih, Act.on_bind]
    · rfl

end Session

end Colloquy
