import Colloquy.Proofs.Bus.Listening
import Colloquy.Proofs.Session.Completion

/-!
# The handler and the bus tell the same story

Whatever a session shows goes to its handler and is published on its bus, at different places and
in different groups: a node that is shown tells the handler of its speaker and its speech before
it publishes the two. Of the signals of a beat, those for the handler and those for the bus are
nevertheless the same notices in the same order (`Beat.filterMap_published_signals`).

A host with two books has its handler write into one of them and the listeners of its bus into the
other. If every kind of events has one living listener, the two books say the same after any moves
(`same_story`).
-/

namespace Colloquy

/-- What is published by a signal. -/
def Signal.published? : Signal → Option Notice
  | .publish notice => some notice
  | _ => none

/-- A notice as it is delivered by a bus: under its kind. -/
def Notice.delivered (notice : Notice) : Notice.Kind × Notice :=
  (notice.kind, notice)

/-! ## What is told and what is published -/

theorem Session.filterMap_published_presenting (store : Store) (node : Node) :
    (presenting store node).filterMap Signal.published? = presentation store node := by
  unfold presenting presentation
  split
  · rfl
  · rfl

namespace Beat

/-- A beat publishes what it tells. -/
theorem filterMap_published_signals (beat : Beat) (session : Session) :
    (beat.signals session).filterMap Signal.published? = beat.told session := by
  cases beat with
  | ran command =>
    rw [told, signals]
    split
    · next hwork =>
      rcases Command.signals_of_work hwork with rfl | ⟨level, message, -, rfl⟩
        | ⟨message, text, rfl⟩ |
        rfl
      · rfl
      · rfl
      · rfl
      · rfl
    · rfl
  | shown node =>
    show (Session.presenting session.store node).filterMap Signal.published? =
      (Session.presenting session.store node).filterMap Signal.told?
    rw [Session.filterMap_published_presenting, filterMap_told_presenting]
  | _ => rfl

/-- What holds of the signals of every beat holds of those of beats in a row. -/
theorem filterMap_signalsIn {note? : Signal → Option Notice}
    (hnote : ∀ (beat : Beat) session, (beat.signals session).filterMap note? = beat.told session)
    (session : Session) (beats : List Beat) :
    (signalsIn session beats).filterMap note? = (heardIn session beats).map (·.1) := by
  induction beats generalizing session with
  | nil => rfl
  | cons beat beats ih =>
    rw [signalsIn, heardIn, List.filterMap_append, List.map_append, List.map_map, hnote, ih]
    exact congrArg (· ++ _) (List.map_id _).symm

end Beat

/-! ## Hosts with two books -/

variable {σ ε : Type} {host : Host σ ε} {world : World σ} {told : σ → List Notice}
  {heard : σ → List (Notice.Kind × Notice)}

/-- The handler and the listeners of a host neither fail nor call back. The handler leaves every
kind of events its one listener and writes what it is told into one book; listeners leave the bus
and the event alone and write what they hear into the other one. -/
structure Host.KeepsBooks (host : Host σ ε) (told : σ → List Notice)
    (heard : σ → List (Notice.Kind × Notice)) : Prop extends host.Aloof where
  handle_ok : ∀ notice world, ((host.handle notice).on world).1 = .ok ()
  handle_bus : ∀ notice world, world.bus.OneEach host.patience →
    ((host.handle notice).on world).2.bus.OneEach host.patience
  handle_told : ∀ notice world,
    told ((host.handle notice).on world).2.rest.host = told world.rest.host ++ [notice]
  handle_heard : ∀ notice world,
    heard ((host.handle notice).on world).2.rest.host = heard world.rest.host
  listens : Audience.Listens ⟨host.listen, Session.reportFailure⟩
  listen_told : ∀ name event world,
    told (host.listen name event world).state.rest.host = told world.rest.host
  listen_heard : ∀ name event world,
    heard (host.listen name event world).state.rest.host =
      heard world.rest.host ++ [(event.kind, event.data)]

namespace Host.KeepsBooks

/-- A publication comes down to a call of one listener. -/
theorem exists_publish (hhost : host.KeepsBooks told heard) (hbus : world.bus.OneEach host.patience)
    (notice : Notice) :
    ∃ bus listener between, bus.OneEach host.patience ∧
      (Session.publish host notice).on world = (.ok (), ⟨bus,
        (host.listen listener ⟨notice.kind, notice, false⟩ ⟨between, world.rest⟩).state.rest⟩) := by
  let event : Event Notice.Kind Notice := ⟨notice.kind, notice, false⟩
  have hfresh : event.consumed = false := rfl
  obtain ⟨bus, listener, between, hkept, hpublish⟩ :=
    Live.exists_publish_of_oneEach hhost.listens hbus hfresh world.rest
  refine ⟨bus, listener, between, hkept, ?_⟩
  rw [Session.publish, Act.on_bind, Act.on_get]
  dsimp only
  rw [show world.publish ⟨host.listen, Session.reportFailure⟩ host.patience event = _ from hpublish]
  rfl

theorem quiet (hhost : host.KeepsBooks told heard) :
    host.Quiet fun bus _ => bus.OneEach host.patience where
  toAloof := hhost.toAloof
  handle_calm notice world hcalm :=
    ⟨hhost.handle_ok notice world, hhost.handle_bus notice world hcalm⟩
  publish_calm notice world hcalm := by
    obtain ⟨bus, listener, between, hkept, hon⟩ := hhost.exists_publish hcalm notice
    rw [hon]
    exact ⟨rfl, hkept⟩

/-- The book of the handler. -/
theorem notes_told (hhost : host.KeepsBooks told heard) :
    host.Notes (fun bus _ => bus.OneEach host.patience) told Signal.told? := by
  intro signal world hcalm
  cases signal with
  | tell notice => exact hhost.handle_told notice world
  | publish notice =>
    obtain ⟨bus, listener, between, -, hon⟩ := hhost.exists_publish hcalm notice
    rw [Session.send, hon]
    exact (hhost.listen_told _ _ _).trans (List.append_nil _).symm
  | log level message => exact (List.append_nil _).symm

/-- The book of the listeners. -/
theorem notes_heard (hhost : host.KeepsBooks told heard) :
    host.Notes (fun bus _ => bus.OneEach host.patience) heard
      fun signal => signal.published?.map Notice.delivered := by
  intro signal world hcalm
  cases signal with
  | tell notice => exact (hhost.handle_heard notice world).trans (List.append_nil _).symm
  | publish notice =>
    obtain ⟨bus, listener, between, -, hon⟩ := hhost.exists_publish hcalm notice
    rw [Session.send, hon]
    exact hhost.listen_heard _ _ _
  | log level message => exact (List.append_nil _).symm

end Host.KeepsBooks

/-! ## Moves -/

/-- In front of a quiet host, the journal of moves is performed beat for beat, be they refused or
not. -/
theorem Session.performBeats_performAll {calm : Bus Notice.Kind String Notice → σ → Prop}
    (hhost : host.Quiet calm) (moves : List Move) (hsettled : world.rest.session.Settled)
    (hcalm : calm world.bus world.rest.host) :
    (performBeats host (Journal.of moves world.rest.session)).on world =
      (.ok (), Move.performAll host moves world) := by
  induction moves generalizing world with
  | nil => rfl
  | cons move moves ih =>
    have hon := performBeats_perform hhost move hsettled hcalm
    obtain ⟨world', hon', hcalm'⟩ := performBeats_calm hhost (move.beats world.rest.session) hcalm
    rw [hon] at hon'
    cases hon'
    have hsession := performBeats_ok hhost.toAloof hon
    rw [Journal.of, performBeats_append, Act.on_bind, hon, ← hsession]
    exact ih (settled_perform hhost.toAloof move hsettled) hcalm'

/-- Handler and bus tell the same story. Whatever moves are made, refused ones among them, what
the handler writes down is what the listeners write down, notice for notice, and every kind of
events keeps its one listener. -/
theorem same_story (hhost : host.KeepsBooks told heard) (hreached : Reached ε world)
    (hbus : world.bus.OneEach host.patience) (moves : List Move) :
    let after := Move.performAll host moves world
    ∃ story : List Notice,
      told after.rest.host = told world.rest.host ++ story ∧
      heard after.rest.host = heard world.rest.host ++ story.map Notice.delivered ∧
      story = (Beat.heardIn world.rest.session (Journal.of moves world.rest.session)).map (·.1) ∧
      after.bus.OneEach host.patience := by
  intro after
  let journal := Journal.of moves world.rest.session
  have hon : (Session.performBeats host journal).on world = (.ok (), after) :=
    Session.performBeats_performAll hhost.quiet moves hreached.settled hbus
  have htold := Session.performBeats_noted hhost.quiet hhost.notes_told journal hbus
  have hheard := Session.performBeats_noted hhost.quiet hhost.notes_heard journal hbus
  obtain ⟨world', hon', hkept⟩ := Session.performBeats_calm hhost.quiet journal hbus
  rw [hon] at htold hheard hon'
  cases hon'
  refine ⟨_, ?_, ?_, rfl, hkept⟩
  · rw [htold, Beat.filterMap_signalsIn fun _ _ => rfl]
  · rw [hheard, ← List.map_filterMap, Beat.filterMap_signalsIn Beat.filterMap_published_signals]

/-! ## A host with two books -/

/-- The host that writes down what it is told on one side and what its listener hears on the
other. -/
def Host.diarist : Host (List Notice × List (Notice.Kind × Notice)) Unit where
  handle notice :=
    modify fun world =>
      { world with
        rest := { world.rest with host := (world.rest.host.1 ++ [notice], world.rest.host.2) } }
  listen _ event world :=
    ⟨{ world with
        rest := { world.rest with
          host := (world.rest.host.1, world.rest.host.2 ++ [(event.kind, event.data)]) } },
      event.consumed, false⟩

theorem Host.keepsBooks_diarist : diarist.KeepsBooks Prod.fst Prod.snd where
  handle _ _ := rfl
  listen _ _ _ := rfl
  handle_ok _ _ := rfl
  handle_bus _ _ hbus := hbus
  handle_told _ _ := rfl
  handle_heard _ _ := rfl
  listens := ⟨fun _ _ _ => rfl, fun _ _ _ => rfl, fun _ _ _ => rfl⟩
  listen_told _ _ _ := rfl
  listen_heard _ _ _ := rfl

/-- A listener that was let go stands before the one that hears. The player goes on from a node
that jumps to one with a choice; entering that one prints something and asks the host for
something else. Choosing what is not offered is refused, and stopping ends the session. -/
theorem same_story_attic :
    let graph : Graph := ⟨[
      { tag := "hall", speaker := "Ann", text := "Up", commands := [⟨"jump", some "attic"⟩] },
      { tag := "attic", choices := [⟨"Down", "hall"⟩]
        commands := [⟨"print", some "dark"⟩, ⟨"light", none⟩] }], by decide⟩
    let subscriptions : List (Subscription String) :=
      [{ listener := "ghost", priority := 1 }, { listener := "ear", weak := false }]
    let bus : Bus Notice.Kind String Notice :=
      { lists := ⟨[(.speaker, subscriptions), (.speech, subscriptions), (.choices, subscriptions),
          (.command, subscriptions), (.completed, subscriptions), (.print, subscriptions)],
          by decide⟩
        dropped := ["ghost"] }
    let fresh : World (List Notice × List (Notice.Kind × Notice)) :=
      { bus, rest := { session := { staging := some (.ofGraph graph) }, host := ([], []) } }
    let after := Move.performAll Host.diarist [.start, .next false, .select 1, .stop] fresh
    after.rest.host.1 =
        [.speaker "Ann", .speech "Up", .print "dark", .command ⟨"light", none⟩, .speaker "",
          .speech "", .choices [⟨"Down", "hall"⟩], .completed] ∧
      after.rest.host.2 = after.rest.host.1.map Notice.delivered := by
  intro graph subscriptions bus fresh after
  have hfresh : fresh.rest.session.Fresh := ⟨_, _, rfl⟩
  have hliving : ∀ kind, bus.living kind = [{ listener := "ear", weak := false }] := by
    intro kind
    cases kind <;> decide +kernel
  have hlength : ∀ kind, (bus.list kind).length = 2 := by
    intro kind
    cases kind <;> rfl
  have hbus : bus.OneEach Host.diarist.patience :=
    { walk := rfl
      queue := rfl
      hands := rfl
      ears := fun kind => ⟨_, hliving kind, rfl⟩
      within := fun kind => by
        rw [hlength kind]
        show 2 < 10000
        decide }
  obtain ⟨story, htold, hheard, hstory, -⟩ :=
    same_story Host.keepsBooks_diarist (.fresh hfresh) hbus
    [.start, .next false, .select 1, .stop]
  have hwritten : story =
      [.speaker "Ann", .speech "Up", .print "dark", .command ⟨"light", none⟩,
        .speaker "", .speech "", .choices [⟨"Down", "hall"⟩], .completed] := by
    rw [hstory]
    decide +kernel
  have hempty : fresh.rest.host = ([], []) := rfl
  have hafter :
      after = Move.performAll Host.diarist [.start, .next false, .select 1, .stop] fresh := rfl
  rw [hempty, List.nil_append] at htold hheard
  rw [hafter, htold, hheard]
  exact ⟨hwritten, rfl⟩

end Colloquy
