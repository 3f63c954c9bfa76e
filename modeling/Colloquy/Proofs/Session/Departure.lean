import Colloquy.Proofs.Session.Sweep

/-!
# Departures

After the change that a move makes directly, it comes in two parts. If the player goes on, the
commands of the node on screen may run first (`Move.prelude`). Then the session ends, enters a
node, shows its node again, or stays as it is, which a `Departure` says. `Move.sequel_eq` puts
both parts together, and is all that needs to be known about the different moves.
-/

namespace Colloquy

/-- Where a move goes after the commands that it has run first. -/
inductive Departure where
  /-- The session stays as it is. -/
  | rests
  /-- It stays as it is, for there is no node with the tag that was asked for. -/
  | misses (tag : String)
  /-- It stays as it is, for there was nothing to choose. -/
  | unasked
  /-- It ends. -/
  | ends
  /-- The node at a place is entered. -/
  | enters (index : Nat)
  /-- The node on screen is shown again. -/
  | reshows
  /-- A command of the node on screen has asked for a jump. -/
  | leaps (tag : String) (index : Nat)

namespace Departure

/-- The beats of a departure. -/
def beats (session : Session) : Departure → List Beat
  | .rests => []
  | .misses tag => [.missed tag]
  | .unasked => [.unasked]
  | .ends => [.finished]
  | .enters index =>
    Course.inGraph session fun staging => Course.enter staging index false session
  | .reshows => Course.reloading session
  | .leaps tag index =>
    Course.inGraph session fun staging => Course.jumping staging tag index session

/-- Going to the node with a tag. -/
def seeking (tag : String) (session : Session) : Departure :=
  match session.staging with
  | none => .rests
  | some staging =>
    match staging.graph.indexOf? tag with
    | none => .misses tag
    | some index => .enters index

/-- Going on to the node after the one on screen. A node that waits for a choice stays. -/
def advancing (staging : Staging) (placed : Placed) (wrap : Bool) (session : Session) : Departure :=
  if placed.node.hasChoices then .rests
  else
    match Course.following? staging placed wrap session with
    | none => .ends
    | some index => .enters index

/-- Leaving the node on screen by a command. -/
def leaving : Exit → Departure
  | .close => .ends
  | .toward tag index => .leaps tag index

end Departure

namespace Move

/-- The node on screen, in the bound graph, if the player goes on and its commands have not been
started. -/
def starts? (session : Session) : Move → Option (Staging × Placed)
  | .next _ =>
    match session.staging, session.current with
    | some staging, some placed => if session.hasRun then none else some (staging, placed)
    | _, _ => none
  | _ => none

theorem starts?_eq_some {session : Session} {move : Move} {staging : Staging} {placed : Placed}
    (h : move.starts? session = some (staging, placed)) :
    session.staging = some staging ∧ session.current = some placed ∧ session.hasRun = false := by
  cases move with
  | next wrap =>
    rw [starts?] at h
    split at h
    · next hbound hcurrent =>
      split at h
      · cases h
      · next hrun =>
        cases h
        exact ⟨hbound, hcurrent, Bool.eq_false_iff.2 hrun⟩
    · cases h
  | _ => cases h

/-- What the commands come to that a move runs first. -/
def sweep? (session : Session) (move : Move) : Option Sweep :=
  (move.starts? session).map fun (staging, placed) =>
    Sweep.of staging.graph placed.node.commands session.store

/-- The beats of the commands that a move runs first. -/
def prelude (session : Session) (move : Move) : List Beat :=
  (move.starts? session).elim [] fun (staging, placed) =>
    .begun :: Course.asides staging.graph placed.node.commands session.store

/-- A prelude is the start of the commands, and asides. -/
theorem forall_mem_prelude {P : Beat → Prop} (hbegun : P .begun)
    (haside : ∀ beat, beat.Aside → P beat) (move : Move) (session : Session) :
    ∀ beat ∈ move.prelude session, P beat := by
  rw [prelude]
  cases move.starts? session with
  | none => exact List.forall_mem_nil _
  | some start =>
    exact List.forall_mem_cons.2
      ⟨hbegun, fun beat hbeat => haside beat (Course.aside_of_mem_asides _ _ _ beat hbeat)⟩

/-- Where a move goes, given the session with the change that the move has made directly. -/
def departure (session : Session) : Move → Departure
  | .start =>
    match session.staging with
    | none => .rests
    | some staging => if staging.graph.nodes.isEmpty then .rests else .enters 0
  | .next wrap =>
    match session.staging, session.current with
    | none, _ => .rests
    | some staging, none => if staging.graph.nodes.isEmpty then .rests else .enters 0
    | some staging, some placed =>
      (((Move.next wrap).sweep? session).bind Sweep.exit?).elim
        (Departure.advancing staging placed wrap session) Departure.leaving
  | .jumpTo index =>
    match session.staging with
    | none => .rests
    | some staging =>
      if 0 ≤ index && index < staging.graph.size then .enters index.toNat else .rests
  | .jump tag => .seeking tag session
  | .select index =>
    match session.current.filter (·.node.hasChoices) with
    | none => .unasked
    | some placed =>
      match if 0 ≤ index then placed.node.choices[index.toNat]? else none with
      | none => .rests
      | some choice => .seeking choice.target session
  | .stop => .ends
  | .reload => .reshows
  | .setVariable _ offer =>
    match offer.take with
    | .ok _ => .reshows
    | .error _ => .rests
  | _ => .rests

end Move

/-! ## Where moves go -/

/-- A departure that leaves the session as it is. -/
def Departure.Rests : Departure → Prop
  | .rests => True
  | .misses _ => True
  | .unasked => True
  | _ => False

/-- A departure to another node, or to the end. -/
def Departure.Goes : Departure → Prop
  | .ends => True
  | .enters _ => True
  | .leaps _ _ => True
  | _ => False

/-- A departure to a node that the graph has. -/
def Departure.Inside (graph : Graph) : Departure → Prop
  | .enters index => index < graph.size
  | .leaps tag index => graph.indexOf? tag = some index
  | _ => True

section Places

variable {session : Session} {staging : Staging}

theorem Departure.inside_seeking (hbound : session.staging = some staging) (tag : String) :
    (Departure.seeking tag session).Inside staging.graph := by
  rw [seeking, hbound]
  dsimp only
  cases hindex : staging.graph.indexOf? tag with
  | none => trivial
  | some index => exact Graph.lt_size_of_indexOf? hindex

theorem Departure.inside_advancing (placed : Placed) (wrap : Bool) :
    (Departure.advancing staging placed wrap session).Inside staging.graph := by
  rw [advancing]
  split
  · trivial
  · cases hindex : Course.following? staging placed wrap session with
    | none => trivial
    | some index => exact Course.lt_size_of_following? hindex

/-- A move goes to a node that the bound graph has. -/
theorem Move.inside_departure (hbound : session.staging = some staging) (move : Move) :
    (move.departure session).Inside staging.graph := by
  cases move with
  | start =>
    simp only [departure, hbound]
    split
    · trivial
    · next hempty => exact Graph.size_pos hempty
  | next wrap =>
    cases hcurrent : session.current with
    | none =>
      simp only [departure, hbound, hcurrent]
      split
      · trivial
      · next hempty => exact Graph.size_pos hempty
    | some placed =>
      simp only [departure, sweep?, starts?, hbound, hcurrent]
      split
      · exact Departure.inside_advancing placed wrap
      · rw [Option.map_some, Option.bind_some]
        cases hexit : (Sweep.of staging.graph placed.node.commands session.store).exit? with
        | none => exact Departure.inside_advancing placed wrap
        | some exit =>
          cases exit with
          | close => trivial
          | toward tag index => exact Sweep.indexOf?_of_exit? hexit
  | jumpTo index =>
    simp only [departure, hbound]
    split
    · next hinside =>
      rw [Bool.and_eq_true, decide_eq_true_iff, decide_eq_true_iff] at hinside
      rw [Departure.Inside]
      omega
    · trivial
  | jump tag => exact Departure.inside_seeking hbound tag
  | select index =>
    rw [departure]
    split
    · trivial
    · split
      · trivial
      · exact Departure.inside_seeking hbound _
  | setVariable name offer =>
    rw [departure]
    split
    · trivial
    · trivial
  | _ => trivial

theorem Departure.Rests.not_goes {departure : Departure} (h : departure.Rests) :
    ¬ departure.Goes := by
  cases departure with
  | rests => exact id
  | misses tag => exact id
  | unasked => exact id
  | _ => exact h.elim

/-- A move that goes nowhere has not run any commands first. -/
theorem Move.starts?_eq_none_of_not_goes {move : Move} (hsound : session.Sound)
    (hgoes : ¬ (move.departure session).Goes) : move.starts? session = none := by
  rw [Option.eq_none_iff_forall_ne_some]
  rintro ⟨staging, placed⟩ hstarts
  obtain ⟨hbound, hcurrent, hrun⟩ := starts?_eq_some hstarts
  -- The node on screen offers no choices, so going on leaves it.
  obtain ⟨_, hactive⟩ := hsound.exists_active hcurrent
  have hchoices : placed.node.hasChoices = false := by
    rw [← Bool.not_eq_true]
    intro h
    rw [hactive.hasRun h] at hrun
    cases hrun
  cases move with
  | next wrap =>
    rw [departure, sweep?, hstarts, Option.map_some, Option.bind_some, hbound, hcurrent] at hgoes
    dsimp only at hgoes
    cases hexit : (Sweep.of staging.graph placed.node.commands session.store).exit? with
    | none =>
      rw [hexit, Option.elim_none, Departure.advancing, hchoices,
        if_neg Bool.false_ne_true] at hgoes
      split at hgoes
      · exact hgoes trivial
      · exact hgoes trivial
    | some exit =>
      rw [hexit] at hgoes
      cases exit with
      | close => exact hgoes trivial
      | toward tag index => exact hgoes trivial
  | _ => cases hstarts

/-- A node that is shown again does not run its commands again. -/
theorem Course.reloading_eq (hsound : session.Sound) :
    reloading session = session.current.elim [] fun placed =>
      [.entered session.index placed true, .shown placed.node] := by
  rw [reloading, inGraph]
  rcases hsound with hidle | ⟨staging, placed, hactive⟩
  · rw [hidle.current]
    cases session.staging with
    | none => rfl
    | some staging => rfl
  · rw [hactive.bound, hactive.current]
    have hruns : (placed.node.hasChoices && ! (true && session.hasRun)) = false := by
      cases hchoices : placed.node.hasChoices with
      | false => rfl
      | true => rw [hactive.hasRun hchoices]; rfl
    exact entering_of_not_runs hactive.place hruns

end Places

/-! ## The two parts of a move -/

section Parts

variable {session : Session}

theorem Departure.beats_seeking (tag : String) (session : Session) :
    (Departure.seeking tag session).beats session = Course.seeking tag session := by
  unfold Departure.seeking Course.seeking Course.inGraph
  cases hbound : session.staging with
  | none => rfl
  | some staging =>
    dsimp only
    cases staging.graph.indexOf? tag with
    | none => rfl
    | some index => simp only [Departure.beats, Course.inGraph, hbound]

theorem Departure.beats_advancing {staging : Staging} (hbound : session.staging = some staging)
    (placed : Placed) (wrap : Bool) :
    (Departure.advancing staging placed wrap session).beats session =
      if placed.node.hasChoices then [] else Course.advancing staging placed wrap session := by
  unfold Departure.advancing Course.advancing
  split
  · rfl
  · cases Course.following? staging placed wrap session with
    | none => rfl
    | some index => simp only [Departure.beats, Course.inGraph, hbound]

theorem Departure.beats_leaving {staging : Staging} (hbound : session.staging = some staging)
    (exit : Exit) :
    (Departure.leaving exit).beats session =
      Course.leaving (Course.jumping staging) session exit := by
  cases exit with
  | close => rfl
  | toward tag index => simp only [Departure.leaving, Departure.beats, Course.inGraph, hbound]; rfl

/-- Going on runs the commands of the node on screen, and then leaves it as they say or goes on. -/
theorem Course.going_eq {staging : Staging} {placed : Placed} (wrap : Bool)
    (hbound : session.staging = some staging) (hcurrent : session.current = some placed) :
    going staging wrap session = (Move.next wrap).prelude session ++
      ((Move.next wrap).departure session).beats
        (Beat.replay session ((Move.next wrap).prelude session)) := by
  simp only [going, hcurrent, Move.departure, Move.prelude, Move.sweep?, Move.starts?, hbound]
  by_cases hrun : session.hasRun = true
  · simp only [pending, if_pos hrun]
    exact (Departure.beats_advancing hbound placed wrap).symm
  · let started := Beat.begun.apply session
    let sweep := Sweep.of staging.graph placed.node.commands session.store
    let swept := Session.keepStore sweep.store started
    let first := Beat.begun :: asides staging.graph placed.node.commands session.store
    have hswept : Beat.replay session first = swept := replay_asides _ _ started
    have hkept : swept.staging = some staging := hbound
    have hpending : pending staging placed session =
        (first ++ sweep.exit?.elim [] (leaving (jumping staging) swept), sweep.exit?.isSome) := by
      rw [pending, if_neg hrun, commands_eq]
      rfl
    rw [hpending, if_neg hrun]
    change (first ++ sweep.exit?.elim [] (leaving (jumping staging) swept)) ++ _ = first ++
      (sweep.exit?.elim (Departure.advancing staging placed wrap session) Departure.leaving).beats
        (Beat.replay session first)
    cases sweep.exit? with
    | none =>
      simp only [Option.elim_none, List.append_nil, Option.isSome_none, Bool.false_or, hswept]
      exact congrArg (first ++ ·) (Departure.beats_advancing hkept placed wrap).symm
    | some exit =>
      simp only [Option.elim_some, Option.isSome_some, Bool.true_or, if_true,
        List.append_nil, hswept]
      exact congrArg (first ++ ·) (Departure.beats_leaving hkept exit).symm

/-- What a move does is its prelude and its departure. -/
theorem Move.sequel_eq (move : Move) (session : Session) :
    move.sequel session = move.prelude session ++
      (move.departure session).beats (Beat.replay session (move.prelude session)) := by
  cases move with
  | next wrap =>
    rw [sequel, Course.inGraph]
    cases hbound : session.staging with
    | none => simp [prelude, starts?, departure, hbound, Departure.beats]
    | some staging =>
      cases hcurrent : session.current with
      | none =>
        simp only [Course.going, prelude, starts?, departure, hbound, hcurrent]
        split
        · rfl
        · simp [Departure.beats, Course.inGraph, hbound]
      | some placed => exact Course.going_eq wrap hbound hcurrent
  | start =>
    rw [sequel, departure, Course.inGraph]
    cases hbound : session.staging with
    | none => rfl
    | some staging =>
      dsimp only
      split
      · rfl
      · simp [prelude, starts?, Departure.beats, Course.inGraph, hbound]
  | jumpTo index =>
    rw [sequel, departure, Course.inGraph]
    cases hbound : session.staging with
    | none => rfl
    | some staging =>
      dsimp only
      split
      · simp [prelude, starts?, Departure.beats, Course.inGraph, hbound]
      · rfl
  | jump tag => exact (Departure.beats_seeking tag session).symm
  | select index =>
    rw [sequel, departure]
    cases session.current.filter (·.node.hasChoices) with
    | none => rfl
    | some placed =>
      dsimp only
      cases if 0 ≤ index then placed.node.choices[index.toNat]? else none with
      | none => rfl
      | some choice => exact (Departure.beats_seeking _ session).symm
  | setVariable name offer =>
    rw [sequel, departure]
    cases offer.take with
    | ok value => rfl
    | error refusal => rfl
  | _ => rfl

end Parts

end Colloquy
