import Colloquy.Proofs.Session.Cursor

/-!
# Journals

In front of a quiet host, moves that are made one after the other perform their journal, beat for
beat (`performAll_journal`). A move that is refused stands in it as a call that nothing comes of.
-/

namespace Colloquy

/-- A beat of two lists in a row is in the first one or in the second one. -/
theorem Journal.split_append {first second before rest : List Beat} {beat : Beat}
    (h : first ++ second = before ++ beat :: rest) :
    (∃ tail, first = before ++ beat :: tail ∧ rest = tail ++ second) ∨
      ∃ init, before = first ++ init ∧ second = init ++ beat :: rest := by
  rcases List.append_eq_append_iff.1 h with ⟨init, hbefore, hsecond⟩ | ⟨tail, hfirst, hrest⟩
  · exact .inr ⟨init, hbefore, hsecond⟩
  · cases tail with
    | nil => exact .inr ⟨[], by rw [hfirst, List.append_nil, List.append_nil], hrest.symm⟩
    | cons other tail =>
      rw [List.cons_append, List.cons.injEq] at hrest
      obtain ⟨rfl, hrest⟩ := hrest
      exact .inl ⟨tail, hfirst, hrest⟩

/-- A move that is refused changes nothing directly. -/
theorem Move.opening_of_refused {ε : Type} {move : Move} {session : Session} {setback : Setback ε}
    (h : move.refusal? session = some setback) : move.opening session = session := by
  cases move with
  | bind staging forget => cases h
  | reset forget => cases h
  | removeVariable name => cases h
  | setVariable name offer =>
    rw [refusal?] at h
    rw [opening]
    cases htake : offer.take with
    | ok value =>
      rw [htake] at h
      cases h
    | error refusal => rfl
  | restore data palette =>
    rw [refusal?] at h
    rw [opening]
    cases hrestore : session.restore data palette with
    | ok restored =>
      rw [hrestore] at h
      cases h
    | error defect => rfl
  | _ => rfl

/-- A move that is refused goes nowhere. -/
theorem Move.sequel_of_refused {ε : Type} {move : Move} {session : Session} {setback : Setback ε}
    (h : move.refusal? session = some setback) : move.sequel session = [] := by
  cases move with
  | start =>
    rw [refusal?] at h
    rw [sequel, Course.inGraph]
    cases hbound : session.staging with
    | none => rfl
    | some staging =>
      rw [hbound] at h
      dsimp only at h ⊢
      by_cases hempty : staging.graph.nodes.isEmpty = true
      · rw [if_pos hempty]
      · rw [if_neg hempty] at h
        cases h
  | next wrap =>
    rw [refusal?] at h
    rw [sequel, Course.inGraph]
    cases hbound : session.staging with
    | none => rfl
    | some staging =>
      rw [hbound] at h
      dsimp only at h ⊢
      by_cases hempty : (session.current.isNone && staging.graph.nodes.isEmpty) = true
      · rw [Bool.and_eq_true, Option.isNone_iff_eq_none] at hempty
        rw [Course.going, hempty.1]
        exact if_pos hempty.2
      · rw [if_neg hempty] at h
        cases h
  | jumpTo index =>
    rw [refusal?] at h
    rw [sequel, Course.inGraph]
    cases hbound : session.staging with
    | none => rfl
    | some staging =>
      rw [hbound] at h
      dsimp only at h ⊢
      by_cases hinside : (0 ≤ index && index < staging.graph.size) = true
      · rw [if_pos hinside] at h
        cases h
      · rw [if_neg hinside]
  | jump tag =>
    rw [refusal?] at h
    rw [sequel, Course.seeking, Course.inGraph]
    cases hbound : session.staging with
    | none => rfl
    | some staging =>
      rw [hbound] at h
      cases h
  | select index =>
    rw [refusal?] at h
    rw [sequel]
    cases hopen : session.current.filter (·.node.hasChoices) with
    | none =>
      rw [hopen] at h
      cases h
    | some placed =>
      rw [hopen] at h
      dsimp only at h ⊢
      cases hchoice : (if 0 ≤ index then placed.node.choices[index.toNat]? else none) with
      | none => rfl
      | some choice =>
        rw [hchoice] at h
        cases h
  | setVariable name offer =>
    rw [refusal?] at h
    rw [sequel]
    cases htake : offer.take with
    | ok value =>
      rw [htake] at h
      cases h
    | error refusal => rfl
  | stop => cases h
  | reload => cases h
  | bind staging forget => rfl
  | reset forget => rfl
  | removeVariable name => rfl
  | restore data palette => rfl

namespace Session

variable {σ ε : Type} {host : Host σ ε} {calm : Bus Notice.Kind String Notice → σ → Prop}
  {heard : σ → List (Notice × Store)}

/-- The state after beats that a quiet host has let the session perform. -/
structure Performed (calm : Bus Notice.Kind String Notice → σ → Prop)
    (heard : σ → List (Notice × Store)) (world : World σ) (beats : List Beat) (world' : World σ) :
    Prop where
  calm : calm world'.bus world'.rest.host
  session : world'.rest.session = Beat.replay world.rest.session beats
  heard : heard world'.rest.host =
    heard world.rest.host ++ Beat.heardIn world.rest.session beats

theorem Performed.append {world world' world'' : World σ} {first second : List Beat}
    (hfirst : Performed calm heard world first world')
    (hsecond : Performed calm heard world' second world'') :
    Performed calm heard world (first ++ second) world'' := by
  refine ⟨hsecond.calm, ?_, ?_⟩
  · rw [hsecond.session, hfirst.session, Beat.replay_append]
  · rw [hsecond.heard, hfirst.heard, hfirst.session, Beat.heardIn_append, List.append_assoc]

/-- A move that succeeds has performed all its beats. -/
theorem perform_ok (hhost : host.Aloof) (hheard : host.Records heard) {move : Move}
    {world : World σ} (hsettled : world.rest.session.Settled)
    (hok : (move.perform host world).1 = .ok ()) :
    (move.perform host world).2.rest.session =
        Beat.replay world.rest.session (move.beats world.rest.session) ∧
      heard (move.perform host world).2.rest.host = heard world.rest.host ++
        Beat.heardIn world.rest.session (move.beats world.rest.session) := by
  have hperforms := performs hhost move hsettled.sound
  rw [hperforms] at hok ⊢
  cases hrefusal : (move.refusal? world.rest.session : Option (Setback ε)) with
  | some setback =>
    rw [hrefusal] at hok
    cases hok
  | none =>
    rw [hrefusal] at hok
    rw [performCourse] at hok ⊢
    rcases hon : (performBeats host (move.beats world.rest.session)).on world with
      ⟨fault | done, world'⟩
    · rw [hon] at hok
      cases hok
    · exact ⟨performBeats_ok hhost hon, performBeats_heard hhost hheard hon⟩

/-- In front of a quiet host, a move succeeds unless it is refused. -/
theorem perform_quiet (hhost : host.Quiet calm) {move : Move} {world : World σ}
    (hsettled : world.rest.session.Settled) (hcalm : calm world.bus world.rest.host)
    (hrefusal : (move.refusal? world.rest.session : Option (Setback ε)) = none) :
    (move.perform host world).1 = .ok () ∧
      calm (move.perform host world).2.bus (move.perform host world).2.rest.host := by
  obtain ⟨world', hon, hkept⟩ := performBeats_calm hhost (move.beats world.rest.session) hcalm
  rw [performs hhost.toAloof move hsettled.sound, hrefusal]
  dsimp only
  rw [performCourse, hon]
  exact ⟨rfl, hkept⟩

/-- In front of a quiet host, a move performs all its beats. -/
theorem perform_beats (hhost : host.Quiet calm) (hheard : host.Records heard) (move : Move)
    {world : World σ} (hsettled : world.rest.session.Settled)
    (hcalm : calm world.bus world.rest.host) :
    Performed calm heard world (move.beats world.rest.session) (move.perform host world).2 := by
  cases hrefusal : (move.refusal? world.rest.session : Option (Setback ε)) with
  | some setback =>
    have hopening := Move.opening_of_refused hrefusal
    rw [performs hhost.toAloof move hsettled.sound, hrefusal, Move.beats, hopening,
      Move.sequel_of_refused hrefusal]
    refine ⟨hcalm, hopening.symm, ?_⟩
    simp [Beat.heardIn, Beat.told, Beat.signals]
  | none =>
    obtain ⟨hok, hkept⟩ := perform_quiet hhost hsettled hcalm hrefusal
    obtain ⟨hsession, htold⟩ := perform_ok hhost.toAloof hheard hsettled hok
    exact ⟨hkept, hsession, htold⟩

/-- In front of a quiet host, moves perform their journal. -/
theorem performAll_journal (hhost : host.Quiet calm) (hheard : host.Records heard)
    (moves : List Move) {world : World σ} (hsettled : world.rest.session.Settled)
    (hcalm : calm world.bus world.rest.host) :
    Performed calm heard world (Journal.of moves world.rest.session)
      (Move.performAll host moves world) := by
  induction moves generalizing world with
  | nil => exact ⟨hcalm, rfl, (List.append_nil _).symm⟩
  | cons move moves ih =>
    have hfirst := perform_beats hhost hheard move hsettled hcalm
    have hrest := ih (settled_perform hhost.toAloof move hsettled) hfirst.calm
    rw [hfirst.session] at hrest
    exact hfirst.append hrest

end Session

/-! ## A host that only listens -/

namespace Host

/-- The host that keeps a record of what it is told, and does nothing else. -/
def recorder : Host (List (Notice × Store)) Unit where
  handle notice :=
    modify fun world =>
      { world with
        rest := { world.rest with
          host := world.rest.host ++ [(notice, world.rest.session.store)] } }
  listen _ _ world := ⟨world, false, false⟩

theorem quiet_recorder : recorder.Quiet fun bus _ => Live.Silent bus where
  handle _ _ := rfl
  listen _ _ _ := rfl
  handle_calm _ _ hcalm := ⟨rfl, hcalm⟩
  publish_calm notice world hcalm := by
    have hpublish := Live.publish_of_silent hcalm ⟨recorder.listen, Session.reportFailure⟩
      recorder.patience ⟨notice.kind, notice, false⟩ world.rest
    have hon : (Session.publish recorder notice).on world =
        (.ok (), { world with bus := { world.bus with hands := [] } }) := by
      rw [Session.publish, Act.on_bind, Act.on_get]
      dsimp only
      rw [hpublish]
      rfl
    rw [hon]
    exact ⟨rfl, hcalm.lists, hcalm.queue, hcalm.walk⟩

theorem records_recorder : recorder.Records id where
  handle _ _ := rfl
  listen _ _ _ := rfl

end Host

end Colloquy
