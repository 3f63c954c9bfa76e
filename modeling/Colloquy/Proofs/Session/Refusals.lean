import Colloquy.Proofs.Session.Journal

/-!
# Refusals

`Refused` lists why a move may fail, each reason by what is bound, what is on screen and what is
asked for. In front of a quiet host these are the only failures, and a move that fails leaves the
whole state as it was (`refused_exactly`). No command fails, whatever its name and its parameter
are (`runCommand_calm`).

A move may also find nothing to do: no node has the tag that it asks for, or nothing is to be
chosen. Such a move is `Fruitless`. It does not fail, but a warning in the log is all that comes
of it.
-/

namespace Colloquy

variable {σ ε : Type}

/-- The reasons for which a move is refused in a session. -/
inductive Refused (ε : Type) (session : Session) : Move → Setback ε → Prop
  | startUnbound : session.staging = none → Refused ε session .start (.fault .noGraph)
  | startEmpty {staging : Staging} :
    session.staging = some staging → staging.graph.nodes = [] →
    Refused ε session .start (.fault (.emptyGraph true))
  | nextUnbound {wrap : Bool} :
    session.staging = none → Refused ε session (.next wrap) (.fault .noGraph)
  | nextEmpty {wrap : Bool} {staging : Staging} :
    session.staging = some staging → staging.graph.nodes = [] →
    Refused ε session (.next wrap) (.fault (.emptyGraph false))
  | jumpToUnbound {index : Int} :
    session.staging = none → Refused ε session (.jumpTo index) (.fault .noGraph)
  | jumpToOutside {index : Int} {staging : Staging} :
    session.staging = some staging → ¬ (0 ≤ index ∧ index < staging.graph.size) →
    Refused ε session (.jumpTo index) (.fault (.invalidJump index staging.graph.size))
  | jumpUnbound {tag : String} :
    session.staging = none → Refused ε session (.jump tag) (.fault .noGraph)
  | selectOutside {index : Int} {placed : Placed} :
    session.current = some placed → placed.node.choices ≠ [] →
    ¬ (0 ≤ index ∧ index < placed.node.choices.length) →
    Refused ε session (.select index) (.fault (.invalidChoice index placed.node.choices.length))
  | setUnsupported {name : String} {offer : Offer} {refusal : Unsupported} :
    (∀ value, offer ≠ .value value) → offer.take = .error refusal →
    Refused ε session (.setVariable name offer) (.fault (.unsupported refusal))
  | restoreDefect {data : Json} {palette : Value.Palette} {defect : SessionDefect} :
    session.restore data palette = .error defect →
    Refused ε session (.restore data palette) (.defect defect)

theorem Node.hasChoices_iff {node : Node} : node.hasChoices = true ↔ node.choices ≠ [] := by
  rw [Node.hasChoices, Bool.not_eq_true', List.isEmpty_eq_false_iff]

/-- A list has an item at the places from zero to its length. -/
theorem choiceAt_eq_none_iff {choices : List Choice} {index : Int} :
    (if 0 ≤ index then choices[index.toNat]? else none) = none ↔
      ¬ (0 ≤ index ∧ index < choices.length) := by
  split
  · next hle =>
    rw [List.getElem?_eq_none_iff]
    omega
  · next hnegative => simp [hnegative]

namespace Move

variable {session : Session} {move : Move} {setback : Setback ε}

/-- A node is on screen only if the bound graph has nodes. -/
theorem current_eq_none_of_empty {staging : Staging} (hsound : session.Sound)
    (hbound : session.staging = some staging) (hempty : staging.graph.nodes = []) :
    session.current = none := by
  rcases hsound with hidle | ⟨other, placed, hactive⟩
  · exact hidle.current
  · obtain rfl : other = staging := Option.some.inj (hactive.bound.symm.trans hbound)
    have hinside := Staging.lt_size_of_at? hactive.place
    rw [Graph.size, hempty] at hinside
    cases hinside

theorem refusal?_of_refused (hsound : session.Sound) (h : Refused ε session move setback) :
    move.refusal? session = some setback := by
  cases h with
  | startUnbound hbound => simp only [refusal?, hbound]
  | startEmpty hbound hempty => simp only [refusal?, hbound, hempty, List.isEmpty_nil, if_true]
  | nextUnbound hbound => simp only [refusal?, hbound]
  | nextEmpty hbound hempty =>
    have hcurrent := current_eq_none_of_empty hsound hbound hempty
    simp [refusal?, hbound, hempty, hcurrent]
  | jumpToUnbound hbound => simp only [refusal?, hbound]
  | jumpToOutside hbound houtside =>
    simp only [refusal?, hbound]
    exact if_neg (by simpa using houtside)
  | jumpUnbound hbound => simp [refusal?, hbound]
  | selectOutside hcurrent hchoices houtside =>
    have hopen := Node.hasChoices_iff.2 hchoices
    simp only [refusal?, hcurrent, Option.filter_some, hopen, if_true,
      choiceAt_eq_none_iff.2 houtside]
  | setUnsupported _ htake => simp only [refusal?, htake]
  | restoreDefect hrestore => simp only [refusal?, hrestore]

theorem refused_of_refusal? (h : move.refusal? session = some setback) :
    Refused ε session move setback := by
  cases move with
  | start =>
    rw [refusal?] at h
    cases hbound : session.staging with
    | none =>
      rw [hbound] at h
      cases h
      exact .startUnbound hbound
    | some staging =>
      rw [hbound] at h
      dsimp only at h
      split at h
      · next hempty =>
        cases h
        exact .startEmpty hbound (List.isEmpty_iff.1 hempty)
      · cases h
  | next wrap =>
    rw [refusal?] at h
    cases hbound : session.staging with
    | none =>
      rw [hbound] at h
      cases h
      exact .nextUnbound hbound
    | some staging =>
      rw [hbound] at h
      dsimp only at h
      split at h
      · next hempty =>
        cases h
        exact .nextEmpty hbound (List.isEmpty_iff.1 (Bool.and_eq_true_iff.1 hempty).2)
      · cases h
  | jumpTo index =>
    rw [refusal?] at h
    cases hbound : session.staging with
    | none =>
      rw [hbound] at h
      cases h
      exact .jumpToUnbound hbound
    | some staging =>
      rw [hbound] at h
      dsimp only at h
      split at h
      · cases h
      · next houtside =>
        cases h
        exact .jumpToOutside hbound (by simpa using houtside)
  | jump tag =>
    rw [refusal?] at h
    split at h
    · next hbound =>
      cases h
      exact .jumpUnbound (Option.isNone_iff_eq_none.1 hbound)
    · cases h
  | select index =>
    rw [refusal?] at h
    cases hopen : session.current.filter (·.node.hasChoices) with
    | none =>
      rw [hopen] at h
      cases h
    | some placed =>
      obtain ⟨hcurrent, hchoices⟩ := Option.filter_eq_some_iff.1 hopen
      rw [hopen] at h
      dsimp only at h
      split at h
      · next hnone =>
        cases h
        exact .selectOutside hcurrent (Node.hasChoices_iff.1 hchoices)
          (choiceAt_eq_none_iff.1 hnone)
      · cases h
  | setVariable name offer =>
    rw [refusal?] at h
    cases htake : offer.take with
    | ok value =>
      rw [htake] at h
      cases h
    | error refusal =>
      rw [htake] at h
      cases h
      refine .setUnsupported (fun value hvalue => ?_) htake
      rw [hvalue] at htake
      cases htake
  | restore data palette =>
    rw [refusal?] at h
    cases hrestore : session.restore data palette with
    | ok restored =>
      rw [hrestore] at h
      cases h
    | error defect =>
      rw [hrestore] at h
      cases h
      exact .restoreDefect hrestore
  | stop => cases h
  | reload => cases h
  | bind staging forget => cases h
  | reset forget => cases h
  | removeVariable name => cases h

/-- A move has the reasons to be refused that `Refused` lists. -/
theorem refusal?_eq_some_iff (hsound : session.Sound) :
    move.refusal? session = some setback ↔ Refused ε session move setback :=
  ⟨refused_of_refusal?, refusal?_of_refused hsound⟩

end Move

/-! ## Moves that find nothing -/

namespace LogEntry

/-- The warning that no node has a tag. -/
def missingTarget (tag : String) : LogEntry :=
  ⟨.warning, .playback, s!"Dialogue jump target not found: [{tag}]"⟩

/-- The warning that a choice was made where none was offered. -/
def unasked : LogEntry :=
  ⟨.warning, .playback, "select_choice() called while no choice is open"⟩

end LogEntry

/-- The world with one more entry in the log. -/
def World.logged (world : World σ) (entry : LogEntry) : World σ :=
  { world with rest := { world.rest with log := world.rest.log ++ [entry] } }

/-- A move finds nothing to do in a session, and a warning says so. -/
inductive Fruitless (session : Session) : Move → LogEntry → Prop
  | jump {staging : Staging} {tag : String} :
    session.staging = some staging → staging.graph.indexOf? tag = none →
    Fruitless session (.jump tag) (.missingTarget tag)
  | select {staging : Staging} {placed : Placed} {index : Nat} {choice : Choice} :
    session.staging = some staging → session.current = some placed →
    placed.node.choices[index]? = some choice → staging.graph.indexOf? choice.target = none →
    Fruitless session (.select index) (.missingTarget choice.target)
  | unasked {index : Int} :
    (∀ placed, session.current = some placed → placed.node.choices = []) →
    Fruitless session (.select index) .unasked

namespace Session

variable {host : Host σ ε} {calm : Bus Notice.Kind String Notice → σ → Prop} {world : World σ}

theorem jump_missing {staging : Staging} {tag : String}
    (hbound : world.rest.session.staging = some staging)
    (hindex : staging.graph.indexOf? tag = none) :
    (jump host tag).on world = (.ok (), world.logged (.missingTarget tag)) := by
  rw [jump, Act.on_bind, on_bound hbound]
  dsimp only
  rw [hindex]
  rfl

/-- A fruitless move adds its warning to the log, and that is all. -/
theorem perform_of_fruitless {move : Move} {entry : LogEntry}
    (h : Fruitless world.rest.session move entry) :
    move.perform host world = (.ok (), world.logged entry) := by
  cases h with
  | jump hbound hindex =>
    rw [Move.perform, Move.played, jump_missing hbound hindex]
    rfl
  | @select staging placed index choice hbound hcurrent hchoice hindex =>
    have hopen : placed.node.hasChoices = true :=
      Node.hasChoices_iff.2 fun hnil => by simp [hnil] at hchoice
    have hselect : (Session.select host index).on world =
        (jump host choice.target).on world := by
      rw [Session.select, Act.on_bind, Act.on_session]
      simp [hcurrent, Option.filter_some, hopen, hchoice]
    rw [Move.perform, Move.played, hselect, jump_missing hbound hindex]
    rfl
  | @unasked index hnone =>
    have hfilter : world.rest.session.current.filter (·.node.hasChoices) = none := by
      rw [Option.filter_eq_none_iff]
      intro placed hcurrent hchoices
      exact Node.hasChoices_iff.1 hchoices (hnone placed hcurrent)
    have hselect : (Session.select host index).on world = (.ok (), world.logged .unasked) := by
      rw [Session.select, Act.on_bind, Act.on_session]
      dsimp only
      rw [hfilter]
      rfl
    rw [Move.perform, Move.played, hselect]
    rfl

/-! ## Commands -/

/-- In front of a quiet host, a command runs to its end, whatever its name and its parameter are. -/
theorem runCommand_calm (hhost : host.Quiet calm) (command : Command) {staging : Staging}
    (hbound : world.rest.session.staging = some staging) (hcalm : calm world.bus world.rest.host) :
    ∃ moved world', (runCommand host (jumpNow host) command).on world = (.ok moved, world') := by
  rw [runCommand_on hhost.toAloof]
  cases command.work world.rest.session.store with
  | close =>
    obtain ⟨world', hon, -⟩ := performBeats_calm hhost [.finished] hcalm
    have hcomplete : (complete host).on world = (.ok (), world') := by
      rw [performBeats, Act.on_bind, performBeat_finished] at hon
      split at hon
      · next hfinished =>
        cases hon
        exact hfinished
      · cases hon
    exact ⟨true, world', by simp only [Act.on_bind, hcomplete, Act.on_pure]⟩
  | jump tag =>
    have hjumps := jumpNow_jumps hhost.toAloof staging
    cases hindex : staging.graph.indexOf? tag with
    | none => exact ⟨false, _, hjumps.miss hbound hindex⟩
    | some index =>
      obtain ⟨world', hon, -⟩ := performBeats_calm hhost
        (Course.jumping staging tag index world.rest.session) hcalm
      refine ⟨true, world', ?_⟩
      dsimp only
      rw [hjumps.leap hbound hindex, hon]
      rfl
  | plain signals store =>
    obtain ⟨world', hon, -⟩ := sendAll_calm hhost signals hcalm
    refine ⟨false, World.setSession world' (keepStore store world'.rest.session), ?_⟩
    simp only [sendThen, Act.on_bind, hon, Act.on_modifySession, Act.on_pure]

/-- In front of a quiet host, a move fails only if it is refused. -/
theorem perform_eq_error_iff (hhost : host.Quiet calm) (hsettled : world.rest.session.Settled)
    (hcalm : calm world.bus world.rest.host) {move : Move} {setback : Setback ε} :
    (move.perform host world).1 = .error setback ↔ Refused ε world.rest.session move setback := by
  rw [← Move.refusal?_eq_some_iff hsettled.sound]
  cases hrefusal : (move.refusal? world.rest.session : Option (Setback ε)) with
  | none =>
    rw [(perform_quiet hhost hsettled hcalm hrefusal).1]
    simp
  | some other =>
    rw [performs hhost.toAloof move hsettled.sound, hrefusal]
    simp

/-- A move that is refused leaves everything as it is. -/
theorem perform_of_refused (hhost : host.Aloof) (hsettled : world.rest.session.Settled)
    {move : Move} {setback : Setback ε} (h : Refused ε world.rest.session move setback) :
    move.perform host world = (.error setback, world) := by
  rw [performs hhost move hsettled.sound, Move.refusal?_of_refused hsettled.sound h]

end Session

/-- In front of a quiet host, a move fails exactly for the reasons that `Refused` lists, and then
the graph, the cursor, the variables, the bus, the log and the host are all as before. A fruitless
move adds a warning to the log and changes nothing else. No command fails. -/
theorem refused_exactly {host : Host σ ε} {calm : Bus Notice.Kind String Notice → σ → Prop}
    (hhost : host.Quiet calm) {world : World σ} (hreached : Reached ε world)
    (hcalm : calm world.bus world.rest.host) :
    let session := world.rest.session
    (∀ (move : Move) setback,
        (move.perform host world).1 = .error setback ↔ Refused ε session move setback) ∧
      (∀ (move : Move) setback, (move.perform host world).1 = .error setback →
        (move.perform host world).2 = world) ∧
      (∀ (move : Move) entry, Fruitless session move entry →
        move.perform host world = (.ok (), world.logged entry)) ∧
      ∀ (command : Command) (other : World σ) staging, other.rest.session.staging = some staging →
        calm other.bus other.rest.host → ∃ moved other',
          (Session.runCommand host (Session.jumpNow host) command).on other =
            (.ok moved, other') := by
  intro session
  have hsettled : session.Settled := hreached.settled
  refine ⟨fun move setback => Session.perform_eq_error_iff hhost hsettled hcalm,
    fun move setback herror => ?_, fun move entry => Session.perform_of_fruitless,
    fun command other staging hbound hother => Session.runCommand_calm hhost command hbound hother⟩
  have hrefused := (Session.perform_eq_error_iff hhost hsettled hcalm).1 herror
  rw [Session.perform_of_refused hhost.toAloof hsettled hrefused]

/-- A node offers one choice, to a node that there is not. A choice past it is refused. -/
theorem refused_exactly_choice :
    let graph : Graph := ⟨[{ tag := "a", choices := [⟨"On", "b"⟩] }], by decide⟩
    let world : World (List (Notice × Store)) :=
      { bus := {}, rest := { session := { staging := some (.ofGraph graph) }, host := [] } }
    let started := (Move.start.perform Host.recorder world).2
    started.rest.session.current.isSome ∧
      (Move.select 1).perform Host.recorder started =
        (.error (.fault (.invalidChoice 1 1)), started) ∧
      (Move.select 0).perform Host.recorder started =
        (.ok (), started.logged (.missingTarget "b")) := by
  intro graph world started
  have hreached : Reached Unit started :=
    .move .start Host.quiet_recorder.toAloof (.fresh ⟨_, _, rfl⟩)
  obtain ⟨hfails, hkept, hfruitless, -⟩ :=
    refused_exactly Host.quiet_recorder hreached ⟨rfl, rfl, rfl⟩
  have hbound : started.rest.session.staging = some (.ofGraph graph) := rfl
  have hcurrent : started.rest.session.current = some ⟨graph.nodes[0], 0⟩ := rfl
  have hrefused : Refused Unit started.rest.session (.select 1) (.fault (.invalidChoice 1 1)) :=
    .selectOutside hcurrent (by decide) (by decide)
  have herror := (hfails _ _).2 hrefused
  have hnowhere : Fruitless started.rest.session (.select 0) (.missingTarget "b") :=
    @Fruitless.select _ _ _ 0 ⟨"On", "b"⟩ hbound hcurrent rfl (by decide)
  refine ⟨?_, ?_, ?_⟩
  · rw [hcurrent]
    rfl
  · exact Prod.ext herror (hkept _ _ herror)
  · exact hfruitless _ _ hnowhere

end Colloquy
