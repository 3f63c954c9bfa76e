import Colloquy.Proofs.Session.Journal

/-!
# Visits

A visit to a node lasts from an entry, which is not just to show the node again, until the session
leaves the node or enters it anew. During a visit the commands of the node run at most once
(`Visit`): for a node with choices right after the entry, for another node when the player first
goes on. Both is the case in every run in front of a quiet host (`commands_once_in_visit`).

`Entry` says what the move does after it has entered a node, and `Remains` what later moves do
while the session stays there.
-/

namespace Colloquy

namespace Beat

/-- A beat that ends a visit. -/
def leaves : Beat → Bool
  | .entered _ _ again => ! again
  | .finished => true
  | .called move => move.rewinds
  | _ => false

/-- The player goes on. -/
def GoesOn : Beat → Prop
  | .called (.next _) => True
  | _ => False

/-- A move is made. -/
def isCall : Beat → Bool
  | .called _ => true
  | _ => false

/-- A beat in which no command runs. The player does not go on, unless the commands of the node
have been started. -/
structure Still (started : Bool) (beat : Beat) : Prop where
  ran : beat.ran? = none
  calm : started = false → ¬ beat.GoesOn

/-- A beat between a command that takes the session away and the end of the visit. -/
def Light : Beat → Prop
  | .leapt => True
  | .tripped _ => True
  | _ => False

/-- A beat after the commands of an entry that has left the session at the node. -/
def Trails : Beat → Prop
  | .shown _ => True
  | .landed => True
  | _ => False

variable {beat : Beat}

theorem Light.still (h : beat.Light) (started : Bool) : beat.Still started := by
  cases beat with
  | leapt => exact ⟨rfl, fun _ => id⟩
  | tripped tag => exact ⟨rfl, fun _ => id⟩
  | _ => exact h.elim

theorem Light.stays (h : beat.Light) : beat.leaves = false := by
  cases beat with
  | leapt => rfl
  | tripped tag => rfl
  | _ => exact h.elim

theorem Trails.still (h : beat.Trails) (started : Bool) : beat.Still started := by
  cases beat with
  | shown node => exact ⟨rfl, fun _ => id⟩
  | landed => exact ⟨rfl, fun _ => id⟩
  | _ => exact h.elim

theorem Trails.stays (h : beat.Trails) : beat.leaves = false := by
  cases beat with
  | shown node => rfl
  | landed => rfl
  | _ => exact h.elim

theorem Aside.stays (h : beat.Aside) : beat.leaves = false := by
  cases beat with
  | ran command => rfl
  | missed tag => rfl
  | _ => exact h.elim

theorem Aside.not_goesOn (h : beat.Aside) : ¬ beat.GoesOn := by
  cases beat with
  | ran command => exact id
  | missed tag => exact id
  | _ => exact h.elim

/-- Beats that take the session away from its node, without running more commands. -/
def Away (beats : List Beat) : Prop :=
  ∃ light beat rest, beats = light ++ beat :: rest ∧ (∀ other ∈ light, other.Light) ∧
    beat.leaves = true

theorem Away.append {beats : List Beat} (h : Away beats) (more : List Beat) :
    Away (beats ++ more) := by
  obtain ⟨light, beat, rest, rfl, hlight, hleaves⟩ := h
  exact ⟨light, beat, rest ++ more, by simp, hlight, hleaves⟩

/-- The rest of a visit. -/
def during (beats : List Beat) : List Beat :=
  beats.takeWhile (! ·.leaves)

theorem during_append {first : List Beat} (hfirst : ∀ beat ∈ first, beat.leaves = false)
    (second : List Beat) : during (first ++ second) = first ++ during second :=
  List.takeWhile_append_of_pos fun beat hbeat => by simp [hfirst beat hbeat]

theorem Away.during {beats : List Beat} (h : Away beats) (more : List Beat) :
    ∃ light, during (beats ++ more) = light ∧ ∀ beat ∈ light, beat.Light := by
  obtain ⟨light, beat, rest, rfl, hlight, hleaves⟩ := h
  refine ⟨light, ?_, hlight⟩
  rw [List.append_assoc, during_append fun other hother => (hlight other hother).stays,
    List.cons_append, Beat.during, List.takeWhile_cons_of_neg (by simp [hleaves]), List.append_nil]

end Beat

/-! ## After an entry -/

/-- What a move does after it has entered a node: the commands run if the node offers choices.
Then the session leaves, or the move ends at the node. -/
def Entry (staging : Staging) (placed : Placed) (store : Store) (tail : List Beat)
    (final : Session) : Prop :=
  ∃ asides more, tail = asides ++ more ∧ (∀ beat ∈ asides, beat.Aside) ∧
    asides.filterMap Beat.ran? =
      (if placed.node.hasChoices then
        (Sweep.of staging.graph placed.node.commands store).ran else []) ∧
    (Beat.Away more ∨ (∀ beat ∈ more, beat.Trails) ∧ final.staging = some staging ∧
      final.current = some placed ∧ final.hasRun = placed.node.hasChoices)

/-- Every node that is entered in beats is in the bound graph, and its entry goes as it should. -/
def Enters (session : Session) (beats : List Beat) : Prop :=
  ∀ before index placed tail, beats = before ++ .entered index placed false :: tail →
    ∃ staging, (Beat.replay session before).staging = some staging ∧
      staging.at? index = some placed ∧
      Entry staging placed (Beat.replay session before).store tail (Beat.replay session beats)

/-- A beat that enters no node, unless it is only to be shown again. -/
def Beat.NoEntry : Beat → Prop
  | .entered _ _ again => again = true
  | _ => True

theorem Beat.Aside.noEntry {beat : Beat} (h : beat.Aside) : beat.NoEntry := by
  cases beat <;> trivial

namespace Enters

open Course

variable {session : Session} {staging : Staging} {first second : List Beat}

theorem of_noEntry (hfirst : ∀ beat ∈ first, beat.NoEntry) : Enters session first := by
  rintro before index placed tail rfl
  exact (Bool.false_ne_true (hfirst (.entered index placed false) (by simp))).elim

/-- Beats that enter no node may come before. -/
theorem after (hfirst : ∀ beat ∈ first, beat.NoEntry)
    (hsecond : Enters (Beat.replay session first) second) : Enters session (first ++ second) := by
  intro before index placed tail hsplit
  rcases Journal.split_append hsplit with ⟨tail, rfl, -⟩ | ⟨init, rfl, hinit⟩
  · exact (Bool.false_ne_true (hfirst (.entered index placed false) (by simp))).elim
  · rw [Beat.replay_append, Beat.replay_append]
    exact hsecond init index placed tail hinit

/-- A jump may end afterwards. -/
theorem landed (h : Enters session first) : Enters session (first ++ [.landed]) := by
  intro before index placed tail hsplit
  rcases Journal.split_append hsplit with ⟨tail, hfirst, rfl⟩ | ⟨init, rfl, hinit⟩
  · obtain ⟨staging, hbound, hplace, asides, more, rfl, hasides, hran, hmore⟩ :=
      h before index placed tail hfirst
    refine ⟨staging, hbound, hplace, asides, more ++ [.landed], by simp, hasides, hran, ?_⟩
    rw [Beat.replay_append]
    rcases hmore with haway | ⟨htrails, hkept⟩
    · exact .inl (haway.append _)
    · exact .inr ⟨List.forall_mem_append.2 ⟨htrails, by simp [Beat.Trails]⟩, hkept⟩
  · cases init <;> simp at hinit

/-- The entry of a node is followed by beats that enter others. -/
theorem entered {index : Nat} {placed : Placed} {tail : List Beat}
    (hbound : session.staging = some staging) (hplace : staging.at? index = some placed)
    (hentry : Entry staging placed session.store tail
      (Beat.replay session (.entered index placed false :: tail)))
    (htail : Enters ((Beat.entered index placed false).apply session) tail) :
    Enters session (.entered index placed false :: tail) := by
  intro before other placed' rest hsplit
  cases before with
  | nil =>
    rw [List.nil_append, List.cons.injEq] at hsplit
    obtain ⟨hbeat, rfl⟩ := hsplit
    cases hbeat
    exact ⟨staging, hbound, hplace, hentry⟩
  | cons beat before =>
    rw [List.cons_append, List.cons.injEq] at hsplit
    obtain ⟨rfl, hsplit⟩ := hsplit
    exact htail before other placed' rest hsplit

/-- Jumps to nodes that there are, from sessions that the graph is bound to. -/
def Leaps (staging : Staging) (leap : String → Nat → Session → List Beat) : Prop :=
  ∀ tag index session, session.staging = some staging → staging.graph.indexOf? tag = some index →
    Enters session (leap tag index session) ∧ Beat.Away (leap tag index session)

theorem entering {leap : String → Nat → Session → List Beat} (hleap : Leaps staging leap)
    (hbound : session.staging = some staging) {index : Nat} (hindex : index < staging.graph.size) :
    Enters session (entering staging leap index false session) := by
  obtain ⟨placed, hplace⟩ := Staging.exists_at? hindex
  cases hchoices : placed.node.hasChoices with
  | false =>
    rw [entering_of_not_runs hplace (by simp [hchoices])]
    refine entered hbound hplace ⟨[], _, rfl, by simp, by simp [hchoices], .inr ⟨?_, ?_⟩⟩ ?_
    · simp [Beat.Trails]
    · exact ⟨hbound, rfl, by simp [Beat.replay, Beat.apply, hchoices]⟩
    · exact of_noEntry (by simp [Beat.NoEntry])
  | true =>
    let opened := (Beat.entered index placed false).apply session
    let sweep := Sweep.of staging.graph placed.node.commands session.store
    let first := asides staging.graph placed.node.commands session.store
    have hreplay : Beat.replay opened first = Session.keepStore sweep.store opened :=
      replay_asides staging.graph placed.node.commands opened
    have hasides : ∀ beat ∈ first, beat.Aside := aside_of_mem_asides _ _ _
    have hran : first.filterMap Beat.ran? = if placed.node.hasChoices then sweep.ran else [] := by
      rw [if_pos hchoices]
      exact filterMap_ran?_asides _ _ _
    have hnoEntry : ∀ beat ∈ first, beat.NoEntry := fun beat hbeat => (hasides beat hbeat).noEntry
    rw [entering_of_runs hplace (by simp [hchoices])]
    cases hexit : (Sweep.of staging.graph placed.node.commands session.store).exit? with
    | none =>
      refine entered hbound hplace ⟨first, [.shown placed.node], rfl, hasides, hran, .inr ?_⟩
        (after hnoEntry (of_noEntry (by simp [Beat.NoEntry])))
      have hfinal :
          Beat.replay session (.entered index placed false :: (first ++ [.shown placed.node])) =
          Session.keepStore sweep.store opened := (Beat.replay_append _ _ _).trans (hreplay ▸ rfl)
      refine ⟨by simp [Beat.Trails], ?_⟩
      rw [Option.elim_none, hfinal]
      exact ⟨hbound, rfl, by simp [opened, Session.keepStore, Beat.apply]⟩
    | some exit =>
      obtain ⟨henters, haway⟩ : Enters (Session.keepStore sweep.store opened)
          (leaving leap (Session.keepStore sweep.store opened) exit) ∧
            Beat.Away (leaving leap (Session.keepStore sweep.store opened) exit) := by
        cases exit with
        | close => exact ⟨of_noEntry (by simp [leaving, Beat.NoEntry]), [], _, _, rfl, by simp, rfl⟩
        | toward tag index => exact hleap tag index _ hbound (Sweep.indexOf?_of_exit? hexit)
      exact entered hbound hplace ⟨first, _, rfl, hasides, hran, .inl haway⟩
        (after hnoEntry (hreplay ▸ henters))

theorem leaping (staging : Staging) (left : Nat) : Leaps staging (leaping staging left) := by
  induction left with
  | zero =>
    intro tag index session hbound hindex
    exact ⟨of_noEntry (by simp [Course.leaping, Beat.NoEntry]),
      [.tripped tag], .finished, [], rfl, by simp [Beat.Light], rfl⟩
  | succ left ih =>
    intro tag index session hbound hindex
    have hinside := Graph.lt_size_of_indexOf? hindex
    obtain ⟨placed, hplace⟩ := Staging.exists_at? hinside
    have hbegun : (Beat.leapt.apply session).staging = some staging := hbound
    have hleapt : ∀ beat ∈ [Beat.leapt], beat.NoEntry := by simp [Beat.NoEntry]
    refine ⟨(after hleapt (entering ih hbegun hinside)).landed, ?_⟩
    rw [Course.leaping, entering_eq hplace]
    exact ⟨[.leapt], _, _, rfl, by simp [Beat.Light], rfl⟩

theorem enter (hbound : session.staging = some staging) {index : Nat}
    (hindex : index < staging.graph.size) :
    Enters session (enter staging index false session) ∧
    Beat.Away (enter staging index false session) := by
  obtain ⟨placed, hplace⟩ := Staging.exists_at? hindex
  rw [enter_eq]
  refine ⟨entering (leaping staging _) hbound hindex, ?_⟩
  rw [entering_eq hplace]
  exact ⟨[], _, _, rfl, by simp, rfl⟩

end Enters

section Moves

variable {session : Session} {staging : Staging} {placed : Placed}

/-- A departure that goes somewhere takes the session away from its node. -/
theorem Departure.enters_away {departure : Departure} (hbound : session.staging = some staging)
    (hinside : departure.Inside staging.graph) (hgoes : departure.Goes) :
    Enters session (departure.beats session) ∧ Beat.Away (departure.beats session) := by
  cases departure with
  | ends => exact ⟨.of_noEntry (by simp [beats, Beat.NoEntry]), [], _, _, rfl, by simp, rfl⟩
  | enters index =>
    rw [beats, Course.inGraph, hbound]
    exact Enters.enter hbound hinside
  | leaps tag index =>
    rw [beats, Course.inGraph, hbound]
    exact Enters.leaping staging _ tag index session hbound hinside
  | _ => exact hgoes.elim

/-- A departure that goes nowhere enters no node. -/
theorem Departure.noEntry_of_not_goes {departure : Departure} (hsound : session.Sound)
    (hgoes : ¬ departure.Goes) : ∀ beat ∈ departure.beats session, beat.NoEntry := by
  cases departure with
  | reshows =>
    rw [beats, Course.reloading_eq hsound]
    cases session.current with
    | none => simp
    | some placed => simp [Beat.NoEntry]
  | ends => exact (hgoes trivial).elim
  | enters index => exact (hgoes trivial).elim
  | leaps tag index => exact (hgoes trivial).elim
  | _ => simp [beats, Beat.NoEntry]

/-- Without a graph, there is no node to enter. -/
theorem Departure.noEntry_of_unbound (departure : Departure) (hbound : session.staging = none) :
    ∀ beat ∈ departure.beats session, beat.NoEntry := by
  cases departure with
  | enters index => simp [beats, Course.inGraph, hbound]
  | leaps tag index => simp [beats, Course.inGraph, hbound]
  | reshows => simp [beats, Course.reloading, Course.inGraph, hbound]
  | _ => simp [beats, Beat.NoEntry]

theorem Move.noEntry_prelude (move : Move) (session : Session) :
    ∀ beat ∈ move.prelude session, beat.NoEntry :=
  move.forall_mem_prelude trivial (fun _ haside => haside.noEntry) session

/-- Every node that a move enters is in the bound graph, and its entry goes as it should. -/
theorem Move.enters_beats (move : Move) (hsound : session.Sound) :
    Enters session (move.beats session) := by
  let opened := move.opening session
  have horderly := Orderly.prelude opened move
  have hswept := horderly.fit.sound_replay (move.sound_opening hsound)
  rw [beats, sequel_eq]
  have hcalled : ∀ beat ∈ [Beat.called move], beat.NoEntry := by simp [Beat.NoEntry]
  refine Enters.after hcalled (Enters.after (move.noEntry_prelude opened) ?_)
  by_cases hgoes : (move.departure opened).Goes
  · cases hbound : opened.staging with
    | some staging =>
      exact (Departure.enters_away (horderly.staging.trans hbound) (move.inside_departure hbound)
        hgoes).1
    | none =>
      exact Enters.of_noEntry
        (Departure.noEntry_of_unbound _ (horderly.staging.trans hbound))
  · exact Enters.of_noEntry (Departure.noEntry_of_not_goes hswept hgoes)

end Moves

/-! ## While the session stays at a node -/

/-- What happens in the rest of a visit, given the session after the entry. Either no commands
run, or they run when the player first goes on, and then the session leaves. -/
inductive Remains (graph : Graph) (placed : Placed) (session : Session) : List Beat → Prop
  | still {beats : List Beat} :
    (∀ beat ∈ beats, beat.Still session.hasRun) → Remains graph placed session beats
  | goesOn {first asides light : List Beat} {wrap : Bool} :
    session.hasRun = false → (∀ beat ∈ first, beat.Still false) →
    (∀ beat ∈ asides, beat.Aside) → asides.filterMap Beat.ran? =
      (Sweep.of graph placed.node.commands (Beat.replay session first).store).ran →
    (∀ beat ∈ light, beat.Light) →
    Remains graph placed session (first ++ .called (.next wrap) :: .begun :: (asides ++ light))

section Stays

variable {session : Session} {staging : Staging} {placed : Placed}

/-- More may happen before, if it leaves the session at its node. -/
theorem Remains.after {graph : Graph} {first beats : List Beat}
    (hrun : (Beat.replay session first).hasRun = session.hasRun)
    (hfirst : ∀ beat ∈ first, beat.Still session.hasRun)
    (h : Remains graph placed (Beat.replay session first) beats) :
    Remains graph placed session (first ++ beats) := by
  cases h with
  | still hstill =>
    rw [hrun] at hstill
    exact .still (List.forall_mem_append.2 ⟨hfirst, hstill⟩)
  | @goesOn more asides light wrap hnot hmore hasides hran hlight =>
    rw [hrun] at hnot
    rw [hnot] at hfirst
    rw [← List.append_assoc]
    refine .goesOn hnot (List.forall_mem_append.2 ⟨hfirst, hmore⟩) hasides ?_ hlight
    rw [Beat.replay_append]
    exact hran

/-- A move that does not rewind changes at most the variables directly. -/
theorem Move.exists_keepStore_opening {move : Move} (hrewinds : move.rewinds = false)
    (session : Session) : ∃ store, move.opening session = Session.keepStore store session := by
  cases move with
  | bind staging forget => cases hrewinds
  | reset forget => cases hrewinds
  | setVariable name offer =>
    rw [opening]
    split
    · exact ⟨_, rfl⟩
    · exact ⟨session.store, rfl⟩
  | removeVariable name => exact ⟨_, rfl⟩
  | restore data palette =>
    rw [rewinds] at hrewinds
    rw [opening, Session.restore]
    cases hvariables : Session.variablesOf data palette with
    | error defect => exact ⟨session.store, rfl⟩
    | ok store =>
      rw [hvariables] at hrewinds
      cases hrewinds
  | _ => exact ⟨session.store, rfl⟩

/-- A player that goes on starts the commands of the node on screen, if they have not been
started. -/
theorem Move.starts?_of_active (hactive : session.Active staging placed) (move : Move) :
    (∃ wrap, move = .next wrap ∧ session.hasRun = false ∧
        move.starts? session = some (staging, placed)) ∨
      move.starts? session = none ∧ (Beat.called move).Still session.hasRun := by
  cases move with
  | next wrap =>
    cases hrun : session.hasRun with
    | false =>
      refine .inl ⟨wrap, rfl, rfl, ?_⟩
      simp [starts?, hactive.bound, hactive.current, hrun]
    | true =>
      refine .inr ⟨?_, rfl, by simp⟩
      simp [starts?, hactive.bound, hactive.current, hrun]
  | _ => exact .inr ⟨rfl, rfl, fun _ => id⟩

/-- A departure that goes nowhere leaves the session at its node and runs no commands. -/
theorem Departure.stays_of_not_goes {departure : Departure}
    (hactive : session.Active staging placed) (hgoes : ¬ departure.Goes) :
    (∀ beat ∈ departure.beats session, beat.Still session.hasRun ∧ beat.leaves = false) ∧
      Beat.replay session (departure.beats session) = session := by
  cases departure with
  | rests => exact ⟨by simp [beats], rfl⟩
  | misses tag => exact ⟨by simpa [beats] using ⟨⟨rfl, fun _ => id⟩, rfl⟩, rfl⟩
  | unasked => exact ⟨by simpa [beats] using ⟨⟨rfl, fun _ => id⟩, rfl⟩, rfl⟩
  | reshows =>
    rw [beats, Course.reloading_eq (.inr ⟨staging, placed, hactive⟩), hactive.current,
      Option.elim_some]
    refine ⟨?_, ?_⟩
    · rw [List.forall_mem_cons, List.forall_mem_singleton]
      exact ⟨⟨⟨rfl, fun _ => id⟩, rfl⟩, ⟨rfl, fun _ => id⟩, rfl⟩
    · -- A node with choices that is shown again has had its commands started.
      have hrun : (true && session.hasRun || placed.node.hasChoices) = session.hasRun := by
        cases hchoices : placed.node.hasChoices with
        | false => simp
        | true => simp [hactive.hasRun hchoices]
      simp only [Beat.replay_cons, Beat.replay_nil, Beat.apply, hrun, ← hactive.current]
  | ends => exact (hgoes trivial).elim
  | enters index => exact (hgoes trivial).elim
  | leaps tag index => exact (hgoes trivial).elim

/-- A move that does not rewind leaves the session at its node, or the visit ends in it. -/
theorem Move.stays_or_remains {move : Move} (hrewinds : move.rewinds = false)
    (hactive : session.Active staging placed) :
    ((∃ store, Beat.replay session (move.beats session) = Session.keepStore store session) ∧
        ∀ beat ∈ move.beats session, beat.Still session.hasRun ∧ beat.leaves = false) ∨
      ∀ more, Remains staging.graph placed session (Beat.during (move.beats session ++ more)) := by
  let opened := move.opening session
  obtain ⟨store, hstore⟩ := move.exists_keepStore_opening hrewinds session
  have hkept : opened = Session.keepStore store session := hstore
  have hrun : opened.hasRun = session.hasRun := by rw [hkept]; rfl
  have hopened : opened.Active staging placed := by
    rw [hkept]
    exact hactive.keepStore store
  have hbeats : move.beats session = .called move :: (move.prelude opened ++
      (move.departure opened).beats (Beat.replay opened (move.prelude opened))) := by
    rw [beats, sequel_eq]
  rw [hbeats]
  by_cases hgoes : (move.departure opened).Goes
  · right
    intro more
    have horderly := Orderly.prelude opened move
    have haway := (Departure.enters_away (horderly.staging.trans hopened.bound)
      (move.inside_departure hopened.bound) hgoes).2
    obtain ⟨light, hduring, hlight⟩ := haway.during more
    rcases move.starts?_of_active hopened with ⟨wrap, rfl, hnot, hstarts⟩ | ⟨hstarts, hstill⟩
    · -- The player goes on, and the commands of the node run.
      let asides := Course.asides staging.graph placed.node.commands opened.store
      have hprelude : (Move.next wrap).prelude opened = .begun :: asides := by
        rw [prelude, hstarts]
        rfl
      have hasides : ∀ beat ∈ asides, beat.Aside := Course.aside_of_mem_asides _ _ _
      have hstays : ∀ beat ∈ .called (.next wrap) :: .begun :: asides, beat.leaves = false :=
        List.forall_mem_cons.2 ⟨rfl, List.forall_mem_cons.2
          ⟨rfl, fun beat hbeat => (hasides beat hbeat).stays⟩⟩
      have hran := Course.filterMap_ran?_asides staging.graph placed.node.commands opened.store
      rw [hprelude] at hduring ⊢
      rw [List.cons_append, ← List.cons_append, ← List.cons_append, List.append_assoc,
        Beat.during_append hstays, hduring]
      exact .goesOn (hrun ▸ hnot) (List.forall_mem_nil _) hasides hran hlight
    · -- Nothing runs before the session leaves.
      have hprelude : move.prelude opened = [] := by rw [prelude, hstarts]; rfl
      rw [hprelude] at hduring ⊢
      rw [List.nil_append, List.cons_append, ← List.singleton_append,
        Beat.during_append (by simpa [Beat.leaves] using hrewinds), hduring]
      refine .still (List.forall_mem_append.2 ⟨?_, fun beat hbeat => (hlight beat hbeat).still _⟩)
      rw [List.forall_mem_singleton]
      exact hrun ▸ hstill
  · left
    have hstarts := Move.starts?_eq_none_of_not_goes (.inr ⟨staging, placed, hopened⟩) hgoes
    have hprelude : move.prelude opened = [] := by rw [prelude, hstarts]; rfl
    obtain ⟨hstays, hreplay⟩ := Departure.stays_of_not_goes hopened hgoes
    rw [hprelude, List.nil_append, Beat.replay_nil]
    refine ⟨⟨store, hreplay.trans hkept⟩, List.forall_mem_cons.2 ⟨⟨?_, hrewinds⟩, hrun ▸ hstays⟩⟩
    rcases move.starts?_of_active hopened with ⟨wrap, -, -, hsome⟩ | ⟨-, hstill⟩
    · rw [hstarts] at hsome
      cases hsome
    · exact hrun ▸ hstill

/-- While moves follow each other, the rest of a visit goes as it should. -/
theorem Journal.remains (moves : List Move) (hactive : session.Active staging placed) :
    Remains staging.graph placed session (Beat.during (Journal.of moves session)) := by
  induction moves generalizing session with
  | nil => exact .still (by simp [Journal.of, Beat.during])
  | cons move moves ih =>
    rw [Journal.of]
    cases hrewinds : move.rewinds with
    | true =>
      rw [Move.beats, List.cons_append, Beat.during,
        List.takeWhile_cons_of_neg (by simp [Beat.leaves, hrewinds])]
      exact .still (by simp)
    | false =>
      rcases Move.stays_or_remains hrewinds hactive with ⟨⟨store, hreplay⟩, hstays⟩ | hremains
      · have hkept : (Beat.replay session (move.beats session)).Active staging placed := by
          rw [hreplay]
          exact hactive.keepStore store
        rw [Beat.during_append fun beat hbeat => (hstays beat hbeat).2]
        exact Remains.after (by rw [hreplay]; rfl) (fun beat hbeat => (hstays beat hbeat).1)
          (ih hkept)
      · exact hremains _

end Stays

/-! ## Visits -/

/-- What happens in a visit to a node, given the session after the entry. A node with choices runs
its commands first, another node when the player first goes on, if at all. -/
inductive Visit (graph : Graph) (placed : Placed) (session : Session) : List Beat → Prop
  | choices {asides rest : List Beat} :
    placed.node.hasChoices = true → (∀ beat ∈ asides, beat.Aside) →
    asides.filterMap Beat.ran? = (Sweep.of graph placed.node.commands session.store).ran →
    (∀ beat ∈ rest, beat.ran? = none) → Visit graph placed session (asides ++ rest)
  | plain {beats : List Beat} :
    placed.node.hasChoices = false → session.hasRun = false → Remains graph placed session beats →
    Visit graph placed session beats

section Visits

variable {session : Session} {staging : Staging} {graph : Graph} {placed : Placed}
  {beats : List Beat}

theorem Remains.ran?_eq_none (hrun : session.hasRun = true)
    (h : Remains graph placed session beats) : ∀ beat ∈ beats, beat.ran? = none := by
  cases h with
  | still hstill => exact fun beat hbeat => (hstill beat hbeat).ran
  | goesOn hnot _ _ _ _ =>
    rw [hrun] at hnot
    cases hnot

/-- An entry and what later moves do make a visit. -/
theorem Entry.visit {store : Store} {tail : List Beat} (moves : List Move)
    (hentry : Entry staging placed store tail (Beat.replay session tail))
    (hstore : session.store = store) (hrun : session.hasRun = placed.node.hasChoices)
    (hsettled : (Beat.replay session tail).Settled) :
    Visit staging.graph placed session
      (Beat.during (tail ++ Journal.of moves (Beat.replay session tail))) := by
  subst hstore
  obtain ⟨asides, more, rfl, hasides, hran, hmore⟩ := hentry
  have hstays : ∀ beat ∈ asides, beat.leaves = false := fun beat hbeat => (hasides beat hbeat).stays
  -- A node without choices has run no commands in its entry.
  have hstill : placed.node.hasChoices = false → ∀ beat ∈ asides, beat.Still session.hasRun := by
    intro hchoices beat hbeat
    rw [hchoices, if_neg Bool.false_ne_true, List.filterMap_eq_nil_iff] at hran
    exact ⟨hran beat hbeat, fun _ => (hasides beat hbeat).not_goesOn⟩
  rcases hmore with haway | ⟨htrails, hbound, hcurrent, hfinal⟩
  · obtain ⟨light, hduring, hlight⟩ :=
      haway.during (Journal.of moves (Beat.replay session (asides ++ more)))
    rw [List.append_assoc, Beat.during_append hstays, hduring]
    cases hchoices : placed.node.hasChoices with
    | true =>
      rw [hchoices, if_pos rfl] at hran
      exact .choices hchoices hasides hran fun beat hbeat => ((hlight beat hbeat).still true).ran
    | false =>
      exact .plain hchoices (hrun.trans hchoices) (.still (List.forall_mem_append.2
        ⟨hstill hchoices, fun beat hbeat => (hlight beat hbeat).still _⟩))
  · obtain ⟨other, hactive⟩ := hsettled.sound.exists_active hcurrent
    obtain rfl : other = staging := Option.some.inj (hactive.bound.symm.trans hbound)
    have hremains := Journal.remains moves hactive
    rw [Beat.during_append (List.forall_mem_append.2
      ⟨hstays, fun beat hbeat => (htrails beat hbeat).stays⟩)]
    cases hchoices : placed.node.hasChoices with
    | true =>
      rw [hchoices, if_pos rfl] at hran
      rw [List.append_assoc]
      refine .choices hchoices hasides hran (List.forall_mem_append.2
        ⟨fun beat hbeat => ((htrails beat hbeat).still true).ran, ?_⟩)
      exact hremains.ran?_eq_none (hfinal.trans hchoices)
    | false =>
      refine .plain hchoices (hrun.trans hchoices) (Remains.after (hfinal.trans hrun.symm)
        (List.forall_mem_append.2 ⟨hstill hchoices, fun beat hbeat => (htrails beat hbeat).still _⟩)
        hremains)

/-- Every visit in a journal goes as it should. -/
theorem Journal.visit {moves : List Move} (hsettled : session.Settled) {before later : List Beat}
    {index : Nat}
    (hsplit : Journal.of moves session = before ++ .entered index placed false :: later) :
    ∃ staging, (Beat.replay session before).staging = some staging ∧
      staging.at? index = some placed ∧
      Visit staging.graph placed
        ((Beat.entered index placed false).apply (Beat.replay session before))
          (Beat.during later) := by
  induction moves generalizing session before with
  | nil => simp [Journal.of] at hsplit
  | cons move moves ih =>
    have hnext := move.settled_beats hsettled
    rcases Journal.split_append hsplit with ⟨tail, hfirst, rfl⟩ | ⟨init, rfl, hrest⟩
    · obtain ⟨staging, hbound, hplace, hentry⟩ :=
        move.enters_beats hsettled.sound before index placed tail hfirst
      refine ⟨staging, hbound, hplace, ?_⟩
      rw [hfirst, Beat.replay_append, Beat.replay_cons] at hentry hnext ⊢
      exact hentry.visit moves rfl (by simp [Beat.apply]) hnext
    · rw [Beat.replay_append]
      exact ih hnext hrest

/-- The commands of a visit are none or those of one sweep. -/
theorem Visit.ran (h : Visit graph placed session beats) :
    beats.filterMap Beat.ran? = [] ∨ ∃ store,
      beats.filterMap Beat.ran? = (Sweep.of graph placed.node.commands store).ran := by
  cases h with
  | choices _ _ hran hrest =>
    rw [List.filterMap_append, List.filterMap_eq_nil_iff.2 hrest, List.append_nil]
    exact .inr ⟨_, hran⟩
  | plain _ _ hremains =>
    cases hremains with
    | still hstill =>
        exact .inl (List.filterMap_eq_nil_iff.2 fun beat hbeat => (hstill beat hbeat).ran)
    | @goesOn first asides light wrap _ hfirst _ hran hlight =>
      have hnone : first.filterMap Beat.ran? = [] :=
        List.filterMap_eq_nil_iff.2 fun beat hbeat => (hfirst beat hbeat).ran
      have hnone' : light.filterMap Beat.ran? = [] :=
        List.filterMap_eq_nil_iff.2 fun beat hbeat => ((hlight beat hbeat).still true).ran
      rw [List.filterMap_append, hnone, List.nil_append, List.filterMap_cons_none rfl,
        List.filterMap_cons_none rfl, List.filterMap_append, hnone', List.append_nil]
      exact .inr ⟨_, hran⟩

/-- In a visit, no command runs because of a move other than going on. -/
theorem Visit.ran?_eq_none_after {first rest : List Beat} {move : Move}
    (h : Visit graph placed session (first ++ .called move :: rest))
    (hmove : ¬ (Beat.called move).GoesOn) :
    ∀ beat ∈ rest.takeWhile (! ·.isCall), beat.ran? = none := by
  intro beat hbeat
  have hmem : beat ∈ rest := List.takeWhile_subset _ hbeat
  generalize hbeats : first ++ .called move :: rest = beats at h
  cases h with
  | @choices asides after _ hasides _ hafter =>
    rcases Journal.split_append hbeats.symm with ⟨tail, rfl, -⟩ | ⟨init, -, rfl⟩
    · exact (hasides (.called move) (by simp)).elim
    · exact hafter beat (by simp [hmem])
  | plain _ _ hremains =>
    cases hremains with
    | still hstill => exact (hstill beat (by simp [← hbeats, hmem])).ran
    | @goesOn before asides light wrap _ hbefore hasides _ hlight =>
      rcases Journal.split_append hbeats.symm with ⟨tail, rfl, rfl⟩ | ⟨init, -, hinit⟩
      · -- The call comes before the player goes on, and so does all that it causes.
        rw [List.takeWhile_append] at hbeat
        split at hbeat
        · rw [List.takeWhile_cons_of_neg (by simp [Beat.isCall]), List.append_nil] at hbeat
          exact (hbefore beat (by simp [hbeat])).ran
        · exact (hbefore beat (by simp [List.takeWhile_subset _ hbeat])).ran
      · -- The call is the one of going on, or comes later, when there are no more calls.
        cases init with
        | nil =>
          cases hinit
          exact (hmove trivial).elim
        | cons other init =>
          rw [List.cons_append, List.cons.injEq] at hinit
          have hcalled : Beat.called move ∈ .begun :: (asides ++ light) := by simp [hinit.2]
          rcases List.mem_cons.1 hcalled with hbegun | hlater
          · cases hbegun
          · rcases List.mem_append.1 hlater with haside | hleave
            · exact (hasides _ haside).elim
            · exact (hlight _ hleave).elim

end Visits

/-- In front of a quiet host, the commands of a node run at most once in a visit: none of them, or
in order up to the first one that closes the session or jumps, or else all. A node with choices
runs them before anything is shown of it, another node when the player first goes on, and other
moves run none. -/
theorem commands_once_in_visit {σ ε : Type} {host : Host σ ε}
    {calm : Bus Notice.Kind String Notice → σ → Prop} {heard : σ → List (Notice × Store)}
    (hhost : host.Quiet calm) (hheard : host.Records heard) {world : World σ}
    (hfresh : world.rest.session.Fresh) (hcalm : calm world.bus world.rest.host)
    (moves : List Move) :
    let session := world.rest.session
    let journal := Journal.of moves session
    let after := Move.performAll host moves world
    after.rest.session = Beat.replay session journal ∧
      heard after.rest.host = heard world.rest.host ++ Beat.heardIn session journal ∧
      ∀ before index placed later, journal = before ++ .entered index placed false :: later →
        let entered := (Beat.entered index placed false).apply (Beat.replay session before)
        let visit := Beat.during later
        let ran := visit.filterMap Beat.ran?
        ∃ staging, entered.staging = some staging ∧ staging.at? index = some placed ∧
          Visit staging.graph placed entered visit ∧ ran <+: placed.node.commands ∧
          (ran = [] ∨ ∃ store, let sweep := Sweep.of staging.graph placed.node.commands store
            ran = sweep.ran ∧ (sweep.exit? = none → ran = placed.node.commands)) ∧
          ∀ first move rest, visit = first ++ .called move :: rest →
            ¬ (Beat.called move).GoesOn → ∀ beat ∈ rest.takeWhile (! ·.isCall),
            beat.ran? = none := by
  intro session journal after
  have hsettled : session.Settled := hfresh.settled
  have hperformed := Session.performAll_journal hhost hheard moves hsettled hcalm
  refine ⟨hperformed.session, hperformed.heard, fun before index placed later hsplit => ?_⟩
  obtain ⟨staging, hbound, hplace, hvisit⟩ := Journal.visit hsettled hsplit
  refine ⟨staging, hbound, hplace, hvisit, ?_, ?_, ?_⟩
  · rcases hvisit.ran with hnone | ⟨store, hran⟩
    · rw [hnone]
      exact List.nil_prefix
    · rw [hran]
      exact Sweep.ran_prefix
  · rcases hvisit.ran with hnone | ⟨store, hran⟩
    · exact .inl hnone
    · exact .inr ⟨store, hran, fun hstays => hran.trans (Sweep.ran_of_exit?_eq_none hstays)⟩
  · intro first move rest hcalled hmove
    rw [hcalled] at hvisit
    exact hvisit.ran?_eq_none_after hmove

/-- A node is shown twice before the player goes on, and its command runs once. -/
theorem commands_once_in_visit_shown_again :
    let command : Command := ⟨"flag", some "met"⟩
    let graph : Graph := ⟨[{ tag := "a", commands := [command] }, { tag := "b" }], by decide⟩
    let world : World (List (Notice × Store)) :=
      { bus := {}, rest := { session := { staging := some (.ofGraph graph) }, host := [] } }
    let journal := Journal.of [.start, .reload, .next false] world.rest.session
    let visit := Beat.during (journal.drop 2)
    visit.filterMap Beat.ran? = [command] ∧ visit.filterMap Beat.ran? <+: [command] ∧
      ∀ first rest, visit = first ++ .called .reload :: rest →
        ∀ beat ∈ rest.takeWhile (! ·.isCall), beat.ran? = none := by
  intro command graph world journal visit
  have hfresh : world.rest.session.Fresh := ⟨_, _, rfl⟩
  obtain ⟨-, -, hvisits⟩ := commands_once_in_visit Host.quiet_recorder Host.records_recorder hfresh
    ⟨rfl, rfl, rfl⟩ [.start, .reload, .next false]
  obtain ⟨staging, -, -, -, hprefix, -, hcalls⟩ := hvisits [.called .start] 0
    ⟨{ tag := "a", commands := [command] }, 0⟩ (journal.drop 2) rfl
  exact ⟨by decide +kernel, hprefix, fun first rest hsplit => hcalls first .reload rest hsplit id⟩

end Colloquy
