import Colloquy.Proofs.Bus.Walks

/-!
# Accounts of what happens on a bus

Whatever a listener does to the bus, it does by deeds: `Audience.Follows` says that the listeners
of an audience do what their manners tell, and publish by `Live.publish` itself.

An account (`Live.Runs`) follows a task step by step and leaves a mark for each step. It is
written down as things happen, one inside the other: in the middle of a call there may be a
publication with a dispatch of its own, and a dispatch itself goes on with all the events that
wait, each in a dispatch of its own. That neither order nor number of the events suffers from this
is for later modules to prove. Whatever deeds a host does one after the other on an idle bus,
there is an account of it (`exists_account`).
-/

namespace Colloquy

open Bus (Deed)

/-- What a listener does when it is called. -/
structure Conduct (κ ι α ρ : Type) where
  /-- What it does to the bus, in order. -/
  deeds : List (Deed κ ι α)
  /-- What it makes of the rest of the state. -/
  rest : ρ
  /-- Whether it leaves the event consumed. -/
  consumed : Bool
  failed : Bool := false

/-- What listeners do when they are called. -/
abbrev Manners (κ ι α ρ : Type) := ι → Event κ α → Live κ ι α ρ → Conduct κ ι α ρ

namespace Bus

variable {κ ι α : Type}

/-- One step in an account. What the bus is like before it goes with the step. -/
inductive Mark (κ ι α : Type) where
  /-- A deed is done, by the host or by the listener of the subscription that is being served. -/
  | did (served : Option (Subscription ι)) (deed : Deed κ ι α) (bus : Bus κ ι α)
  /-- The dispatch of an event begins. -/
  | taken (event : Event κ α) (bus : Bus κ ι α)
  /-- A subscription is passed over because it has lost its listener. -/
  | skipped (subscription : Subscription ι) (bus : Bus κ ι α)
  /-- The listener of a subscription is called. -/
  | begun (subscription : Subscription ι) (event : Event κ α) (bus : Bus κ ι α)
  /-- The listener of a subscription returns. The event is as it has left it. -/
  | ended (subscription : Subscription ι) (event : Event κ α) (failed : Bool)
  /-- The walk for an event is over, and the subscriptions at some places of the walked list are
  to go, the last one first. The bus is the one after that. -/
  | finished (walked : List (Subscription ι)) (places : List Nat) (bus : Bus κ ι α)

/-- Nothing is dispatched, and no event waits. -/
structure Idle (bus : Bus κ ι α) : Prop where
  walk : bus.walk = none
  queue : bus.queue = []

variable [DecidableEq κ] [DecidableEq ι]

/-- A subscription has lost its listener. -/
def isLost (bus : Bus κ ι α) (subscription : Subscription ι) : Bool :=
  subscription.weak && ! bus.alive subscription.listener

end Bus

namespace Live

variable {κ ι α ρ : Type} [DecidableEq κ] [DecidableEq ι]

/-- Does a deed. -/
def perform (audience : Audience κ ι α ρ) (fuel : Nat) (live : Live κ ι α ρ) :
    Deed κ ι α → Option (Live κ ι α ρ)
  | .publish event => (publish audience fuel event live).map (·.2)
  | deed => some (live.mapBus (·.apply deed))

/-- Does deeds in order. -/
def performAll (audience : Audience κ ι α ρ) (fuel : Nat) (deeds : List (Deed κ ι α))
    (live : Live κ ι α ρ) : Option (Live κ ι α ρ) :=
  deeds.foldlM (perform audience fuel) live

/-- Reports the failure of a listener that has been told of an event, if it has failed. -/
def settled (report : κ → ρ → ρ) (event : Event κ α) (failed : Bool) (live : Live κ ι α ρ) :
    Live κ ι α ρ :=
  if failed then { live with rest := report event.kind live.rest } else live

end Live

/-- The listeners of an audience do what their manners tell. They are only ever called while an
event is dispatched. -/
def Audience.Follows {κ ι α ρ : Type} [DecidableEq κ] [DecidableEq ι] (audience : Audience κ ι α ρ)
    (fuel : Nat) (manners : Manners κ ι α ρ) : Prop :=
  ∀ listener event live, live.bus.walk.isSome →
    let conduct := manners listener event live
    ∃ after,
      Live.performAll audience fuel conduct.deeds { live with rest := conduct.rest } = some after ∧
      audience.call listener event live = ⟨after, conduct.consumed, conduct.failed⟩

namespace Live

variable {κ ι α ρ : Type} [DecidableEq κ] [DecidableEq ι]

/-- A task that comes up on a bus. -/
inductive Task (κ ι α : Type) where
  /-- Deeds are to be done, by the host or by the listener of a subscription. -/
  | perform (served : Option (Subscription ι)) (deeds : List (Deed κ ι α))
  /-- An event is to be dispatched, and after it all that wait. -/
  | dispatch (event : Event κ α)
  /-- All events that wait are to be dispatched. -/
  | drain
  /-- The walk for an event is to go on at a place, unless it is stopped. The subscriptions at
  some places, of which the last comes first, have ended. -/
  | walk (place : Nat) (places : List Nat) (event : Event κ α) (stopped : Bool)

/-- How a task is carried out, and the marks that it leaves. -/
inductive Runs (manners : Manners κ ι α ρ) (report : κ → ρ → ρ) :
    Task κ ι α → Live κ ι α ρ → List (Bus.Mark κ ι α) → Live κ ι α ρ → Prop
  | rest {served live} : Runs manners report (.perform served []) live [] live
  /-- While an event is dispatched, one that is published joins those that wait. -/
  | apply {served deed deeds live marks live'}
      (hdeed : deed.event? = none ∨ live.bus.walk.isSome)
      (hdeeds : Runs manners report (.perform served deeds) (live.mapBus (·.apply deed))
        marks live') :
      Runs manners report (.perform served (deed :: deeds)) live
        (.did served deed live.bus :: marks) live'
  | publish {served event deeds live first between second live'}
      (hwalk : live.bus.walk = none)
      (hdispatch : Runs manners report (.dispatch event) live first between)
      (hdeeds : Runs manners report (.perform served deeds)
        (between.mapBus fun bus => { bus with hands := [] }) second live') :
      Runs manners report (.perform served (.publish event :: deeds)) live
        (.did served (.publish event) live.bus :: (first ++ second)) live'
  | unheard {event live} (hlist : live.bus.lists.contains event.kind = false) :
      Runs manners report (.dispatch event) live
        [.taken event live.bus, .finished [] [] live.bus] live
  /-- After the walk for an event, its dispatch goes on with all that wait. -/
  | dispatch {event live first between second live'}
      (hlist : live.bus.lists.contains event.kind = true)
      (hwalk : Runs manners report (.walk 0 [] event false) (live.beginWalk event.kind)
        first between)
      (hdrain : Runs manners report .drain between second live') :
      Runs manners report (.dispatch event) live
        (.taken event live.bus :: (first ++ second)) live'
  | dry {live} (hqueue : live.bus.queue = []) : Runs manners report .drain live [] live
  | drain {event queue live first between second live'}
      (hqueue : live.bus.queue = event :: queue)
      (hdispatch : Runs manners report (.dispatch event)
        (live.mapBus fun bus => { bus with queue }) first between)
      (hdrain : Runs manners report .drain between second live') :
      Runs manners report .drain live (first ++ second) live'
  /-- The walk ends behind the last subscription, and behind one whose listener leaves the event
  consumed. -/
  | finished {place places event stopped live}
      (hend : stopped = true ∨ live.bus.walked[place]? = none) :
      Runs manners report (.walk place places event stopped) live
        [.finished live.bus.walked places (live.endWalk places).bus] (live.endWalk places)
  | skip {place places event live subscription marks live'}
      (hat : live.bus.walked[place]? = some subscription)
      (hlost : live.bus.isLost subscription = true)
      (hwalk : Runs manners report (.walk (place + 1) (place :: places) event false)
        (live.take none)
        marks live') :
      Runs manners report (.walk place places event false) live
        (.skipped subscription live.bus :: marks) live'
  | serve {place places event live subscription conduct first after second live'}
      (hat : live.bus.walked[place]? = some subscription)
      (hlost : live.bus.isLost subscription = false)
      (hconduct : manners subscription.listener event (live.take subscription.listener) = conduct)
      (hcall : Runs manners report (.perform (some subscription) conduct.deeds)
        { live.take subscription.listener with rest := conduct.rest } first after)
      (hwalk : Runs manners report
        (.walk (place + 1) (if subscription.oneShot then place :: places else places)
          { event with consumed := conduct.consumed } conduct.consumed)
        (after.settled report event conduct.failed) second live') :
      Runs manners report (.walk place places event false) live
        (.begun subscription event live.bus :: (first ++ .ended subscription
          { event with consumed := conduct.consumed } conduct.failed :: second)) live'

omit [DecidableEq κ] [DecidableEq ι] in
theorem settled_bus (report : κ → ρ → ρ) (event : Event κ α) (failed : Bool) (live : Live κ ι α ρ) :
    (live.settled report event failed).bus = live.bus := by
  rw [settled]
  split <;> rfl

variable {audience : Audience κ ι α ρ} {manners : Manners κ ι α ρ} {report : κ → ρ → ρ}
  {fuel : Nat} {live live' : Live κ ι α ρ}

/-! ## Deeds of listeners -/

section Listeners

variable {served : Option (Subscription ι)} {marks : List (Bus.Mark κ ι α)}

/-- The marks of deeds that are done while an event is dispatched. -/
def deedMarks (served : Option (Subscription ι)) :
    Bus κ ι α → List (Deed κ ι α) → List (Bus.Mark κ ι α)
  | _, [] => []
  | bus, deed :: deeds => .did served deed bus :: deedMarks served (bus.apply deed) deeds

theorem isSome_walk_apply {bus : Bus κ ι α} (h : bus.walk.isSome) (deed : Deed κ ι α) :
    (bus.apply deed).walk.isSome := by
  have hkind := congrArg Option.isSome (bus.walkKind?_apply deed)
  rw [Bus.walkKind?, Bus.walkKind?, Option.isSome_map, Option.isSome_map] at hkind
  rw [hkind, h]

theorem isSome_walk_foldl {bus : Bus κ ι α} (h : bus.walk.isSome) (deeds : List (Deed κ ι α)) :
    (deeds.foldl Bus.apply bus).walk.isSome :=
  List.foldlRecOn (motive := fun between => between.walk.isSome) deeds Bus.apply h
    fun _ hbetween deed _ => isSome_walk_apply hbetween deed

/-- While an event is dispatched, a deed changes nothing but the bus, whatever the listeners do. -/
theorem perform_of_walking (h : live.bus.walk.isSome) (deed : Deed κ ι α) :
    perform audience fuel live deed = some (live.mapBus (·.apply deed)) := by
  cases deed with
  | publish event =>
    rw [perform, publish, if_pos h]
    rfl
  | _ => rfl

theorem performAll_of_walking (live : Live κ ι α ρ) (h : live.bus.walk.isSome)
    (deeds : List (Deed κ ι α)) :
    performAll audience fuel deeds live =
      some (live.mapBus fun bus => deeds.foldl Bus.apply bus) := by
  induction deeds generalizing live with
  | nil => rfl
  | cons deed deeds ih =>
    rw [performAll, List.foldlM_cons, perform_of_walking h]
    exact ih _ (isSome_walk_apply h deed)

theorem runs_deeds (live : Live κ ι α ρ) (h : live.bus.walk.isSome)
    (served : Option (Subscription ι)) (deeds : List (Deed κ ι α)) :
    Runs manners report (.perform served deeds) live (deedMarks served live.bus deeds)
      (live.mapBus fun bus => deeds.foldl Bus.apply bus) := by
  induction deeds generalizing live with
  | nil => exact .rest
  | cons deed deeds ih => exact .apply (.inr h) (ih _ (isSome_walk_apply h deed))

/-- While an event is dispatched, deeds leave only their own marks: no listener is called. -/
theorem Runs.of_walking {deeds : List (Deed κ ι α)}
    (h : Runs manners report (.perform served deeds) live marks live')
    (hwalk : live.bus.walk.isSome) :
    marks = deedMarks served live.bus deeds ∧
      live' = live.mapBus fun bus => deeds.foldl Bus.apply bus := by
  induction deeds generalizing live marks with
  | nil =>
    cases h
    exact ⟨rfl, rfl⟩
  | cons deed deeds ih =>
    cases h with
    | apply hdeed hdeeds =>
      obtain ⟨rfl, rfl⟩ := ih hdeeds (isSome_walk_apply hwalk deed)
      exact ⟨rfl, rfl⟩
    | publish hnone hdispatch hdeeds =>
      rw [hnone] at hwalk
      cases hwalk

/-- What comes of the call of a listener: its deeds are done. -/
theorem Runs.called {subscription : Subscription ι} {conduct : Conduct κ ι α ρ}
    {after : Live κ ι α ρ} (hcall : Runs manners report (.perform (some subscription) conduct.deeds)
      { live.take subscription.listener with rest := conduct.rest } marks after)
    (hwalk : live.bus.walk.isSome) (event : Event κ α) :
    let bus := (live.take subscription.listener).bus
    marks = deedMarks (some subscription) bus conduct.deeds ∧
      (after.settled report event conduct.failed).bus = conduct.deeds.foldl Bus.apply bus ∧
      (after.settled report event conduct.failed).bus.walk.isSome := by
  have htaken := isSome_walk_take hwalk (some subscription.listener)
  obtain ⟨hmarks, rfl⟩ := hcall.of_walking htaken
  rw [settled_bus]
  exact ⟨hmarks, rfl, isSome_walk_foldl htaken _⟩

/-- A listener that is called while an event is dispatched does its deeds, and nothing else comes
of it. -/
theorem call_of_follows (hfollows : audience.Follows fuel manners) (hwalk : live.bus.walk.isSome)
    (listener : ι) (event : Event κ α) :
    let conduct := manners listener event live
    audience.call listener event live =
      ⟨⟨conduct.deeds.foldl Bus.apply live.bus, conduct.rest⟩, conduct.consumed,
        conduct.failed⟩ := by
  intro conduct
  obtain ⟨after, hdeeds, hcall⟩ := hfollows listener event live hwalk
  have hall : performAll audience fuel conduct.deeds { live with rest := conduct.rest } =
      some ⟨conduct.deeds.foldl Bus.apply live.bus, conduct.rest⟩ :=
    performAll_of_walking { live with rest := conduct.rest } hwalk conduct.deeds
  rw [hcall, ← Option.some.inj (hall.symm.trans hdeeds)]

end Listeners

/-! ## Every run has an account -/

theorem exists_runs_walk (hfollows : audience.Follows fuel manners) {count place : Nat}
    {places : List Nat} {event event' : Event κ α} (hwalking : live.bus.walk.isSome)
    (hwalk : walkFrom audience count place places event live = some (event', live')) :
    live'.bus.walk = none ∧
      ∃ marks, Runs manners audience.report (.walk place places event false) live marks live' := by
  induction count generalizing place places event live with
  | zero => cases hwalk
  | succ count ih =>
    rw [walkFrom] at hwalk
    split at hwalk
    · next hat =>
      cases hwalk
      exact ⟨walk_endWalk live places, _, .finished (.inr hat)⟩
    · next subscription hat =>
      split at hwalk
      · next hlost =>
        obtain ⟨hnone, marks, hmarks⟩ := ih (isSome_walk_take hwalking none) hwalk
        exact ⟨hnone, _, .skip hat hlost hmarks⟩
      · next hlost =>
        have htaken := isSome_walk_take hwalking (some subscription.listener)
        rw [call_of_follows hfollows htaken] at hwalk
        generalize hconduct :
            manners subscription.listener event (live.take subscription.listener) =
          conduct at hwalk
        let after : Live κ ι α ρ :=
          ⟨conduct.deeds.foldl Bus.apply (live.take subscription.listener).bus, conduct.rest⟩
        let left : Live κ ι α ρ := after.settled audience.report event conduct.failed
        let places' := if subscription.oneShot then place :: places else places
        let event'' : Event κ α := { event with consumed := conduct.consumed }
        have hdeeds : Runs manners audience.report (.perform (some subscription) conduct.deeds)
            { live.take subscription.listener with rest := conduct.rest } _ after :=
          runs_deeds { live.take subscription.listener with rest := conduct.rest } htaken _ _
        have hserve {second : List (Bus.Mark κ ι α)}
            (hwalk : Runs manners audience.report
              (.walk (place + 1) places' event'' conduct.consumed) left second live') :=
          Runs.serve hat (Bool.eq_false_iff.2 hlost) hconduct hdeeds hwalk
        change (if conduct.consumed then some (event'', left.endWalk places')
          else walkFrom audience count (place + 1) places' event'' left) =
            some (event', live') at hwalk
        split at hwalk
        · next hconsumed =>
          rw [Option.some.injEq, Prod.mk.injEq] at hwalk
          rw [← hwalk.2, hconsumed] at hserve
          rw [← hwalk.2]
          exact ⟨walk_endWalk left places', _, hserve (.finished (.inl rfl))⟩
        · next hconsumed =>
          rw [Bool.eq_false_iff.2 hconsumed] at hserve
          have hleft : left.bus.walk.isSome := by
            rw [settled_bus]
            exact isSome_walk_foldl htaken _
          obtain ⟨hnone, marks, hmarks⟩ := ih hleft hwalk
          exact ⟨hnone, _, hserve hmarks⟩

/-- Taking up one waiting event after the other comes to the same as going on with all that wait
from inside the dispatch of the first one. -/
theorem exists_runs_drain (hfollows : audience.Follows fuel manners) {bound count : Nat}
    (hwalk : live.bus.walk = none) (hdrain : drain audience bound count live = some live') :
    live'.bus.Idle ∧ ∃ marks, Runs manners audience.report .drain live marks live' := by
  induction count generalizing live with
  | zero =>
    rw [drain] at hdrain
    split at hdrain
    · next hqueue =>
      cases hdrain
      exact ⟨⟨hwalk, List.isEmpty_iff.1 hqueue⟩, _, .dry (List.isEmpty_iff.1 hqueue)⟩
    · cases hdrain
  | succ count ih =>
    rw [drain] at hdrain
    split at hdrain
    · next hqueue =>
      cases hdrain
      exact ⟨⟨hwalk, hqueue⟩, _, .dry hqueue⟩
    · next event queue hqueue =>
      rw [dispatch] at hdrain
      split at hdrain
      · cases hdrain
      · next event' between hdispatch =>
        split at hdispatch
        · next hlist =>
          obtain ⟨hnone, first, hfirst⟩ := exists_runs_walk hfollows (by rfl) hdispatch
          obtain ⟨hidle, second, hsecond⟩ := ih hnone hdrain
          exact ⟨hidle, _, .drain hqueue (.dispatch hlist hfirst hsecond) (.dry hidle.queue)⟩
        · next hlist =>
          cases hdispatch
          have hwalk' : (live.mapBus fun bus => { bus with queue }).bus.walk = none := hwalk
          obtain ⟨hidle, second, hsecond⟩ := ih hwalk' hdrain
          exact ⟨hidle, _, .drain hqueue (.unheard (Bool.eq_false_iff.2 hlist)) hsecond⟩

/-- A publication on an idle bus dispatches its event and with it all that comes to wait. -/
theorem exists_runs_publish (hfollows : audience.Follows fuel manners) {bound : Nat}
    {event event' : Event κ α} (hidle : live.bus.Idle)
    (hpublish : publish audience bound event live = some (event', live')) :
    ∃ between marks, live' = between.mapBus (fun bus => { bus with hands := [] }) ∧
      between.bus.Idle ∧
      Runs manners audience.report (.dispatch event) live marks between := by
  rw [publish, hidle.walk] at hpublish
  simp only [Option.isSome_none, Bool.false_eq_true, if_false, bind, Option.bind_eq_some_iff,
    Prod.exists] at hpublish
  obtain ⟨event'', walked, hdispatch, between, hdrain, hresult⟩ := hpublish
  have hlive' : live' = between.mapBus fun bus => { bus with hands := [] } := by
    cases hresult
    rfl
  rw [dispatch] at hdispatch
  split at hdispatch
  · next hlist =>
    obtain ⟨hnone, first, hfirst⟩ := exists_runs_walk hfollows (by rfl) hdispatch
    obtain ⟨hidle', second, hsecond⟩ := exists_runs_drain hfollows hnone hdrain
    exact ⟨between, _, hlive', hidle', .dispatch hlist hfirst hsecond⟩
  · next hlist =>
    cases hdispatch
    have hdry : drain audience bound bound live = some live := by
      cases bound with
      | zero => rw [drain, hidle.queue]; rfl
      | succ bound => rw [drain, hidle.queue]
    rw [hdry] at hdrain
    cases hdrain
    exact ⟨live, _, hlive', hidle, .unheard (Bool.eq_false_iff.2 hlist)⟩

theorem idle_apply {bus : Bus κ ι α} (h : bus.Idle) {deed : Deed κ ι α}
    (hdeed : deed.event? = none) :
    (bus.apply deed).Idle := by
  constructor
  · have hkind := bus.walkKind?_apply deed
    rw [Bus.walkKind?, Bus.walkKind?, h.walk] at hkind
    exact Option.map_eq_none_iff.1 hkind
  · rw [Bus.queue_apply, h.queue, hdeed]
    rfl

/-- What a host does one after the other on an idle bus has an account, and the bus is idle
again. -/
theorem exists_account (hfollows : audience.Follows fuel manners) {bound : Nat}
    {deeds : List (Deed κ ι α)} (hidle : live.bus.Idle)
    (hdeeds : performAll audience bound deeds live = some live') :
    live'.bus.Idle ∧ ∃ marks,
    Runs manners audience.report (.perform none deeds) live marks live' := by
  induction deeds generalizing live with
  | nil =>
    cases hdeeds
    exact ⟨hidle, _, .rest⟩
  | cons deed deeds ih =>
    rw [performAll, List.foldlM_cons] at hdeeds
    obtain ⟨between, hdeed, hdeeds⟩ := Option.bind_eq_some_iff.1 hdeeds
    by_cases hevent : deed.event? = none
    · have hbetween : between = live.mapBus (·.apply deed) := by
        cases deed with
        | publish event => cases hevent
        | _ => exact (Option.some.inj hdeed).symm
      subst hbetween
      obtain ⟨hidle', marks, hmarks⟩ := ih (idle_apply hidle hevent) hdeeds
      exact ⟨hidle', _, .apply (.inl hevent) hmarks⟩
    · obtain ⟨event, rfl⟩ : ∃ event, deed = .publish event := by
        cases deed with
        | publish event => exact ⟨event, rfl⟩
        | _ => exact absurd rfl hevent
      obtain ⟨⟨event', live''⟩, hpublish, rfl⟩ := Option.map_eq_some_iff.1 hdeed
      obtain ⟨last, first, rfl, hidle', hfirst⟩ := exists_runs_publish hfollows hidle hpublish
      have hlast : (last.mapBus fun bus => { bus with hands := [] }).bus.Idle :=
        ⟨hidle'.walk, hidle'.queue⟩
      obtain ⟨hidle'', second, hsecond⟩ := ih hlast hdeeds
      exact ⟨hidle'', _, .publish hidle.walk hfirst hsecond⟩

end Live

/-- An audience whose listeners have some manners. -/
def Audience.ofManners {κ ι α ρ : Type} [DecidableEq κ] [DecidableEq ι] (manners : Manners κ ι α ρ)
    (report : κ → ρ → ρ) : Audience κ ι α ρ where
  call listener event live :=
    let conduct := manners listener event live
    ⟨⟨conduct.deeds.foldl Bus.apply live.bus, conduct.rest⟩, conduct.consumed, conduct.failed⟩
  report := report

theorem Audience.follows_ofManners {κ ι α ρ : Type} [DecidableEq κ] [DecidableEq ι]
    (manners : Manners κ ι α ρ) (report : κ → ρ → ρ) (fuel : Nat) :
    (Audience.ofManners manners report).Follows fuel manners :=
  fun listener event live hwalk =>
    ⟨_, Live.performAll_of_walking
      { live with rest := (manners listener event live).rest } hwalk _, rfl⟩

end Colloquy
