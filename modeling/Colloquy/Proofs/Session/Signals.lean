import Colloquy.Proofs.Session.Performance

/-!
# What moves let out

The signals of beats, one after the other, are all that a move lets out (`Beat.signalsIn`). Two
kinds of hosts show them: a host that leaves the log alone, so that of the playback only its own
entries stand there (`mem_log_performBeats`), and a host that takes notes of what reaches it
(`performBeats_noted`). The notes may be a transcript of all that its handler is told and all that
is published on its bus, in one order (`performBeats_transcript`). `Host.scribe` has one.
-/

namespace Colloquy

namespace Signal

/-- What a signal writes into the log. -/
def entry? : Signal → Option LogEntry
  | .log level message => some ⟨level, .playback, message⟩
  | _ => none

/-- What a signal tells the handler or publishes. -/
def notice? : Signal → Option Notice
  | .tell notice => some notice
  | .publish notice => some notice
  | .log _ _ => none

/-- Whether a signal goes to the handler or to the bus. -/
def emits (signal : Signal) : Bool :=
  signal.notice?.isSome

end Signal

namespace Beat

/-- The signals of beats, in order. -/
def signalsIn (session : Session) : List Beat → List Signal
  | [] => []
  | beat :: beats => beat.signals session ++ signalsIn (beat.apply session) beats

/-- What is told to the handler and published on the bus in beats, in order. -/
def emittedIn (session : Session) (beats : List Beat) : List Signal :=
  (signalsIn session beats).filter Signal.emits

theorem signalsIn_append (session : Session) (first second : List Beat) :
    signalsIn session (first ++ second) =
      signalsIn session first ++ signalsIn (replay session first) second := by
  induction first generalizing session with
  | nil => rfl
  | cons beat first ih => simp [signalsIn, ih]

theorem emittedIn_append (session : Session) (first second : List Beat) :
    emittedIn session (first ++ second) =
      emittedIn session first ++ emittedIn (replay session first) second := by
  rw [emittedIn, signalsIn_append, List.filter_append]
  rfl

/-- Every signal is one of a beat. -/
theorem exists_of_mem_signalsIn {session : Session} {beats : List Beat} {signal : Signal}
    (h : signal ∈ signalsIn session beats) :
    ∃ beat ∈ beats, ∃ now, signal ∈ beat.signals now := by
  induction beats generalizing session with
  | nil => cases h
  | cons beat beats ih =>
    rcases List.mem_append.1 h with hfirst | hrest
    · exact ⟨beat, List.mem_cons_self, session, hfirst⟩
    · obtain ⟨other, hother, hsignal⟩ := ih hrest
      exact ⟨other, List.mem_cons_of_mem _ hother, hsignal⟩

end Beat

variable {σ ε : Type} {host : Host σ ε} {world world' : World σ}

/-! ## The log -/

/-- Neither the handler nor a listener writes into the log. -/
structure Host.Discreet (host : Host σ ε) : Prop where
  handle : ∀ notice world, ((host.handle notice).on world).2.rest.log = world.rest.log
  listen : ∀ name event world,
    (host.listen name event world).state.rest.log = world.rest.log

/-- An entry of the playback. -/
def LogEntry.OfPlayback (entry : LogEntry) : Prop :=
  entry.origin = .playback

namespace Session

/-- Of the playback, nothing but the entry of the signal comes into the log. -/
theorem mem_log_send (hhost : host.Discreet) {signal : Signal} {entry : LogEntry}
    (hentry : entry.OfPlayback) (h : entry ∈ ((send host signal).on world).2.rest.log) :
    entry ∈ world.rest.log ∨ signal.entry? = some entry := by
  cases signal with
  | tell notice =>
    rw [send, tell, hhost.handle] at h
    exact .inl h
  | publish notice =>
    let Kept (scene : Scene σ) : Prop :=
      ∀ entry ∈ scene.log, entry.OfPlayback → entry ∈ world.rest.log
    have hkeeps : Live.Keeps ⟨host.listen, reportFailure⟩ Kept := by
      refine ⟨fun name event world' hkept => ?_, fun kind scene hkept => ?_⟩
      · intro entry hmem
        dsimp only at hmem
        rw [hhost.listen] at hmem
        exact hkept entry hmem
      · intro entry hmem hplayback
        -- The report of a failure is an entry of the bus.
        rcases List.mem_append.1 hmem with hold | hnew
        · exact hkept entry hold hplayback
        · rw [List.mem_singleton.1 hnew] at hplayback
          cases hplayback
    have hpublished : Kept ((publish host notice).on world).2.rest := by
      simp only [publish, Act.on_bind, Act.on_get]
      split
      · next hpublish =>
        exact Live.publish_keeps hkeeps hpublish fun entry hmem _ => hmem
      · exact fun entry hmem _ => hmem
    exact .inl (hpublished entry h hentry)
  | log level message =>
    rcases List.mem_append.1 h with hold | hnew
    · exact .inl hold
    · exact .inr (congrArg some (List.mem_singleton.1 hnew).symm)

theorem mem_log_sendAll (hhost : host.Discreet) {signals : List Signal} {entry : LogEntry}
    (hentry : entry.OfPlayback) (h : entry ∈ ((sendAll host signals).on world).2.rest.log) :
    entry ∈ world.rest.log ∨ ∃ signal ∈ signals, signal.entry? = some entry := by
  induction signals generalizing world with
  | nil => exact .inl h
  | cons signal signals ih =>
    have hfirst : entry ∈ ((send host signal).on world).2.rest.log →
        entry ∈ world.rest.log ∨ signal.entry? = some entry := mem_log_send hhost hentry
    rw [sendAll, Act.on_bind] at h
    rcases hon : (send host signal).on world with ⟨fault | done, world₁⟩
    · rw [hon] at h hfirst
      rcases hfirst h with hold | hnew
      · exact .inl hold
      · exact .inr ⟨signal, List.mem_cons_self, hnew⟩
    · rw [hon] at h hfirst
      rcases ih h with hmiddle | ⟨other, hother, hnew⟩
      · rcases hfirst hmiddle with hold | hnew
        · exact .inl hold
        · exact .inr ⟨signal, List.mem_cons_self, hnew⟩
      · exact .inr ⟨other, List.mem_cons_of_mem _ hother, hnew⟩

/-- Of the playback, nothing but entries of the beats comes into the log. -/
theorem mem_log_performBeats (hhost : host.Aloof) (hlog : host.Discreet) {beats : List Beat}
    {entry : LogEntry} (hentry : entry.OfPlayback)
    (h : entry ∈ ((performBeats host beats).on world).2.rest.log) :
    entry ∈ world.rest.log ∨
      ∃ signal ∈ Beat.signalsIn world.rest.session beats, signal.entry? = some entry := by
  induction beats generalizing world with
  | nil => exact .inl h
  | cons beat beats ih =>
    let first := beat.signals world.rest.session
    have hfirst : entry ∈ ((sendAll host first).on world).2.rest.log →
        entry ∈ world.rest.log ∨ ∃ signal ∈ first, signal.entry? = some entry :=
      mem_log_sendAll hlog hentry
    rw [performBeats, Act.on_bind, performBeat_on hhost] at h
    rw [Beat.signalsIn]
    rcases hon : (sendAll host first).on world with ⟨fault | done, world₁⟩
    · rw [hon] at h hfirst
      rcases hfirst h with hold | ⟨signal, hsignal, hnew⟩
      · exact .inl hold
      · exact .inr ⟨signal, List.mem_append_left _ hsignal, hnew⟩
    · rw [hon] at h hfirst
      rcases ih h with hmiddle | ⟨signal, hsignal, hnew⟩
      · rcases hfirst hmiddle with hold | ⟨signal, hsignal, hnew⟩
        · exact .inl hold
        · exact .inr ⟨signal, List.mem_append_left _ hsignal, hnew⟩
      · exact .inr ⟨signal, List.mem_append_right _ hsignal, hnew⟩

end Session

/-! ## Notes -/

/-- In calm states, the host takes a note of some of the signals that reach it. -/
def Host.Notes {γ : Type} (host : Host σ ε) (calm : Bus Notice.Kind String Notice → σ → Prop)
    (noted : σ → List γ) (note? : Signal → Option γ) : Prop :=
  ∀ signal world, calm world.bus world.rest.host →
    noted ((Session.send host signal).on world).2.rest.host =
      noted world.rest.host ++ (note? signal).toList

namespace Session

variable {γ : Type} {calm : Bus Notice.Kind String Notice → σ → Prop} {noted : σ → List γ}
  {note? : Signal → Option γ}

theorem sendAll_noted (hhost : host.Quiet calm) (hnotes : host.Notes calm noted note?)
    (signals : List Signal) (hcalm : calm world.bus world.rest.host) :
    noted ((sendAll host signals).on world).2.rest.host =
      noted world.rest.host ++ signals.filterMap note? := by
  induction signals generalizing world with
  | nil => exact (List.append_nil _).symm
  | cons signal signals ih =>
    obtain ⟨hok, hkept⟩ := send_calm hhost signal hcalm
    have hfirst := hnotes signal world hcalm
    rcases hon : (send host signal).on world with ⟨result, world₁⟩
    rw [hon] at hok hkept hfirst
    cases hok
    rw [sendAll, Act.on_bind, hon]
    dsimp only
    rw [ih hkept, hfirst, List.append_assoc, List.filterMap_cons]
    cases note? signal <;> rfl

/-- The notes of beats are those of their signals. -/
theorem performBeats_noted (hhost : host.Quiet calm) (hnotes : host.Notes calm noted note?)
    (beats : List Beat) (hcalm : calm world.bus world.rest.host) :
    noted ((performBeats host beats).on world).2.rest.host =
      noted world.rest.host ++ (Beat.signalsIn world.rest.session beats).filterMap note? := by
  induction beats generalizing world with
  | nil => exact (List.append_nil _).symm
  | cons beat beats ih =>
    let signals := beat.signals world.rest.session
    obtain ⟨world₁, hsent, hkept⟩ := sendAll_calm hhost signals hcalm
    have hfirst := sendAll_noted hhost hnotes signals hcalm
    rw [hsent] at hfirst
    have hcalm' : calm (World.setSession world₁ (beat.apply world.rest.session)).bus
        (World.setSession world₁ (beat.apply world.rest.session)).rest.host := hkept
    rw [performBeats, Act.on_bind, performBeat_on hhost.toAloof, hsent]
    dsimp only
    rw [ih hcalm', World.setSession_session, Beat.signalsIn, List.filterMap_append,
      ← List.append_assoc]
    exact congrArg (· ++ _) hfirst

end Session

/-! ## Transcripts -/

/-- In calm states, the host has a transcript of all that its handler is told and all that is
published on its bus. -/
structure Host.Transcribes (host : Host σ ε) (calm : Bus Notice.Kind String Notice → σ → Prop)
    (seen : σ → List Signal) : Prop where
  handle : ∀ notice world, calm world.bus world.rest.host →
    seen ((host.handle notice).on world).2.rest.host = seen world.rest.host ++ [.tell notice]
  publish : ∀ notice world, calm world.bus world.rest.host →
    seen ((Session.publish host notice).on world).2.rest.host =
      seen world.rest.host ++ [.publish notice]

section Transcripts

variable {calm : Bus Notice.Kind String Notice → σ → Prop} {seen : σ → List Signal}

theorem Host.Transcribes.notes (hseen : host.Transcribes calm seen) :
    host.Notes calm seen (Option.guard Signal.emits) := by
  intro signal world hcalm
  cases signal with
  | tell notice => exact hseen.handle notice world hcalm
  | publish notice => exact hseen.publish notice world hcalm
  | log level message => exact (List.append_nil _).symm

/-- The transcript of beats has all that they tell and publish. -/
theorem Session.performBeats_transcript (hhost : host.Quiet calm)
    (hseen : host.Transcribes calm seen)
    (beats : List Beat) (hcalm : calm world.bus world.rest.host) :
    seen ((performBeats host beats).on world).2.rest.host =
      seen world.rest.host ++ Beat.emittedIn world.rest.session beats := by
  rw [performBeats_noted hhost hseen.notes beats hcalm, List.filterMap_eq_filter]
  rfl

end Transcripts

/-! ## A host that writes everything down -/

namespace Host

/-- The host that writes down what it is told and what its listener hears, and does nothing else. -/
def scribe : Host (List Signal) Unit where
  handle notice :=
    modify fun world =>
      { world with rest := { world.rest with host := world.rest.host ++ [.tell notice] } }
  listen _ event world :=
    ⟨{ world with rest := { world.rest with host := world.rest.host ++ [.publish event.data] } },
      event.consumed, false⟩

theorem publish_scribe {listener : String} {world : World (List Signal)}
    (hattended : Live.Attended listener world.bus) (notice : Notice) :
    ∃ bus, Live.Attended listener bus ∧ (Session.publish scribe notice).on world = (.ok (),
      ⟨bus, { world.rest with host := world.rest.host ++ [.publish notice] }⟩) := by
  let hear (event : Event Notice.Kind Notice) (scene : Scene (List Signal)) : Scene (List Signal) :=
    { scene with host := scene.host ++ [.publish event.data] }
  have hcall : ∀ (event : Event Notice.Kind Notice) (live : World (List Signal)),
      scribe.listen listener event live =
        ⟨{ live with rest := hear event live.rest }, event.consumed, false⟩ := fun _ _ => rfl
  let audience : Audience Notice.Kind String Notice (Scene (List Signal)) :=
    ⟨scribe.listen, Session.reportFailure⟩
  obtain ⟨bus, hpublish, hkept⟩ := @Live.publish_of_attended _ _ _ _ _ _ _ _ hattended audience
    hear hcall 9998 ⟨notice.kind, notice, false⟩ world.rest
  refine ⟨bus, hkept, ?_⟩
  rw [Session.publish, Act.on_bind, Act.on_get]
  dsimp only
  rw [show world.publish audience scribe.patience ⟨notice.kind, notice, false⟩ = _ from hpublish]
  rfl

theorem quiet_scribe (listener : String) :
    scribe.Quiet fun bus _ => Live.Attended listener bus where
  handle _ _ := rfl
  listen _ _ _ := rfl
  handle_calm _ _ hcalm := ⟨rfl, hcalm⟩
  publish_calm notice world hcalm := by
    obtain ⟨bus, hkept, hon⟩ := publish_scribe hcalm notice
    rw [hon]
    exact ⟨rfl, hkept⟩

theorem transcribes_scribe (listener : String) :
    scribe.Transcribes (fun bus _ => Live.Attended listener bus) id where
  handle _ _ _ := rfl
  publish notice world hcalm := by
    obtain ⟨bus, -, hon⟩ := publish_scribe hcalm notice
    rw [hon]
    rfl

end Host

end Colloquy
