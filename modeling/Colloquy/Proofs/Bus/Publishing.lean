import Colloquy.Bus.Dispatch

/-!
# What publishing leaves alone

Publishing hands the whole state to listeners, so it may change anything. What every listener
leaves as it was, and the report of a failure too, publishing leaves as it was. On a bus without
subscriptions, nothing is called. On a bus with one lasting subscription for every kind of events,
its listener is called once.
-/

namespace Colloquy.Live

variable {κ ι α ρ : Type} [DecidableEq κ] [DecidableEq ι]

section Keeps

variable {audience : Audience κ ι α ρ} {P : ρ → Prop}

/-- A property of the rest of the state is kept by all listeners and by the report of a failure. -/
structure Keeps (audience : Audience κ ι α ρ) (P : ρ → Prop) : Prop where
  call : ∀ listener event live, P live.rest → P (audience.call listener event live).state.rest
  report : ∀ kind rest, P rest → P (audience.report kind rest)

theorem walkFrom_keeps (h : Keeps audience P) {fuel place : Nat} {places : List Nat}
    {event event' : Event κ α} {live live' : Live κ ι α ρ}
    (hwalk : walkFrom audience fuel place places event live = some (event', live'))
    (hlive : P live.rest) : P live'.rest := by
  induction fuel generalizing place places event live with
  | zero => simp [walkFrom] at hwalk
  | succ fuel ih =>
    rw [walkFrom] at hwalk
    split at hwalk
    · cases hwalk
      exact hlive
    · next subscription hat =>
      split at hwalk
      · exact ih hwalk hlive
      · have hcall := h.call subscription.listener event (live.take subscription.listener) hlive
        generalize audience.call subscription.listener event (live.take subscription.listener) =
          reply at hwalk hcall
        have hreply : P (if reply.failed then
            { reply.state with rest := audience.report event.kind reply.state.rest }
            else reply.state).rest := by
          split
          · exact h.report _ _ hcall
          · exact hcall
        dsimp only at hwalk
        split at hwalk
        · cases hwalk
          exact hreply
        · exact ih hwalk hreply

theorem dispatch_keeps (h : Keeps audience P) {fuel : Nat} {event event' : Event κ α}
    {live live' : Live κ ι α ρ}
    (hdispatch : dispatch audience fuel event live = some (event', live'))
    (hlive : P live.rest) : P live'.rest := by
  rw [dispatch] at hdispatch
  split at hdispatch
  · exact walkFrom_keeps h hdispatch hlive
  · cases hdispatch
    exact hlive

theorem drain_keeps (h : Keeps audience P) {fuel count : Nat} {live live' : Live κ ι α ρ}
    (hdrain : drain audience fuel count live = some live') (hlive : P live.rest) :
    P live'.rest := by
  induction count generalizing live with
  | zero =>
    rw [drain] at hdrain
    split at hdrain
    · cases hdrain
      exact hlive
    · cases hdrain
  | succ count ih =>
    rw [drain] at hdrain
    split at hdrain
    · cases hdrain
      exact hlive
    · next event queue hqueue =>
      split at hdrain
      · cases hdrain
      · next hdispatch => exact ih hdrain (dispatch_keeps h hdispatch hlive)

/-- What all listeners keep, a publication keeps. -/
theorem publish_keeps (h : Keeps audience P) {fuel : Nat} {event event' : Event κ α}
    {live live' : Live κ ι α ρ} (hpublish : publish audience fuel event live = some (event', live'))
    (hlive : P live.rest) : P live'.rest := by
  rw [publish] at hpublish
  split at hpublish
  · cases hpublish
    exact hlive
  · simp only [bind, Option.bind_eq_some_iff, Prod.exists] at hpublish
    obtain ⟨event'', live'', hdispatch, drained, hdrain, hresult⟩ := hpublish
    have hdrained := drain_keeps h hdrain (dispatch_keeps h hdispatch hlive)
    cases hresult
    exact hdrained

end Keeps

/-- Nothing listens for any event, and no event waits. -/
structure Silent (bus : Bus κ ι α) : Prop where
  lists : bus.lists.entries = []
  queue : bus.queue = []
  walk : bus.walk = none

theorem publish_of_silent {bus : Bus κ ι α} (h : Silent bus) (audience : Audience κ ι α ρ)
    (fuel : Nat) (event : Event κ α) (rest : ρ) :
    publish audience fuel event ⟨bus, rest⟩ = some (event, ⟨{ bus with hands := [] }, rest⟩) := by
  have hnone : bus.lists.contains event.kind = false := by
    simp [Ledger.contains, Ledger.get?, Entries.find?, h.lists]
  have hdispatch : dispatch audience fuel event ⟨bus, rest⟩ = some (event, ⟨bus, rest⟩) := by
    simp [dispatch, hnone]
  have hdrain : drain audience fuel fuel ⟨bus, rest⟩ = some ⟨bus, rest⟩ := by
    cases fuel <;> simp [drain, h.queue]
  simp [publish, h.walk, hdispatch, hdrain, mapBus]

/-- One listener is subscribed to every kind of events for good, and no event waits. -/
structure Attended (listener : ι) (bus : Bus κ ι α) : Prop where
  lists : ∀ kind, bus.lists.get? kind = some [{ listener, weak := false }]
  queue : bus.queue = []
  walk : bus.walk = none

/-- On an attended bus, the listener hears the event once. -/
theorem publish_of_attended {bus : Bus κ ι α} {listener : ι} (h : Attended listener bus)
    {audience : Audience κ ι α ρ} {hear : Event κ α → ρ → ρ}
    (hcall : ∀ event live, audience.call listener event live =
      ⟨{ live with rest := hear event live.rest }, event.consumed, false⟩)
    (fuel : Nat) (event : Event κ α) (rest : ρ) :
    ∃ bus', publish audience (fuel + 2) event ⟨bus, rest⟩ = some (event, ⟨bus', hear event rest⟩) ∧
      Attended listener bus' := by
  let only : Subscription ι := { listener, weak := false }
  let walking : Live κ ι α ρ :=
    ⟨{ bus with walk := some ⟨event.kind, none, some listener⟩ }, hear event rest⟩
  let ended := walking.endWalk []
  have hlist : bus.list event.kind = [only] := by rw [Bus.list, h.lists]; rfl
  have hwalked : walking.bus.walked = [only] := hlist
  have hended : ended.bus = { bus with
      lists := bus.lists.insert event.kind [only]
      hands := bus.hands ++ [listener] ++ [listener]
      walk := none } := by
    simp only [ended, endWalk, mapBus, hwalked]
    rfl
  have hdispatch : dispatch audience (fuel + 2) event ⟨bus, rest⟩ = some (event, ended) := by
    have hcontains : bus.lists.contains event.kind = true := by rw [Ledger.contains, h.lists]; rfl
    have hbegun : (beginWalk ⟨bus, rest⟩ event.kind : Live κ ι α ρ).bus.walked = [only] := hlist
    rw [dispatch, if_pos hcontains, walkFrom, hbegun]
    simp only [only, List.getElem?_cons_zero, Bool.false_and, Bool.false_eq_true, if_false, hcall]
    change (if event.consumed then some (event, ended)
      else walkFrom audience (fuel + 1) 1 [] event walking) = some (event, ended)
    split
    · rfl
    · rw [walkFrom, hwalked]
      rfl
  have hqueue : ended.bus.queue = [] := by rw [hended]; exact h.queue
  have hdrain : drain audience (fuel + 2) (fuel + 2) ended = some ended := by
    rw [drain, hqueue]
  refine ⟨{ ended.bus with hands := [] }, ?_, ?_, hqueue, ?_⟩
  · have hidle : (⟨bus, rest⟩ : Live κ ι α ρ).bus.walk.isSome = false := by rw [h.walk]; rfl
    rw [publish, if_neg (hidle ▸ Bool.false_ne_true), hdispatch]
    change (drain audience (fuel + 2) (fuel + 2) ended).bind _ = _
    rw [hdrain]
    rfl
  · intro kind
    rw [hended]
    by_cases hkind : kind = event.kind
    · rw [hkind]
      exact Ledger.get?_insert_self _ _ _
    · exact (Ledger.get?_insert_of_ne _ hkind _).trans (h.lists kind)
  · rw [hended]

end Colloquy.Live
