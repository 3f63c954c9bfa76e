import Colloquy.Proofs.Bus.Accounts

/-!
# Listeners that only listen

The listeners of an audience only listen if they leave the bus and the event alone and do not
fail. An event that is published on an idle bus is then heard by the living subscriptions to its
kind, in their order, and nothing but the list of its kind changes: subscriptions that have lost
their listeners and those for one event leave it (`Live.exists_publish_of_listens`).

`Bus.OneEach` says that every kind has one living subscription, which is not for one event, beside
any number of subscriptions that have lost their listeners. Publications keep it, and each of them
is heard exactly once (`Live.exists_publish_of_oneEach`).
-/

namespace Colloquy

variable {κ ι α ρ : Type}

/-- The listeners of an audience leave the bus and the event alone and do not fail. -/
structure Audience.Listens (audience : Audience κ ι α ρ) : Prop where
  bus : ∀ listener event live, (audience.call listener event live).state.bus = live.bus
  consumed : ∀ listener event live, (audience.call listener event live).consumed = event.consumed
  failed : ∀ listener event live, (audience.call listener event live).failed = false

/-- Listeners are called for an event, one after the other. -/
inductive Audience.Hears (audience : Audience κ ι α ρ) (event : Event κ α) : List ι → ρ → ρ → Prop
  | nil {rest : ρ} : Hears audience event [] rest rest
  | cons {listener : ι} {listeners : List ι} {rest last : ρ} (bus : Bus κ ι α) :
    Hears audience event listeners (audience.call listener event ⟨bus, rest⟩).state.rest last →
    Hears audience event (listener :: listeners) rest last

namespace Bus

variable [DecidableEq κ] [DecidableEq ι] {bus : Bus κ ι α} {kind : κ}

/-- The subscriptions to a kind that have not lost their listeners. -/
def living (bus : Bus κ ι α) (kind : κ) : List (Subscription ι) :=
  (bus.list kind).filter (! bus.isLost ·)

/-- The subscriptions to a kind that an event leaves behind. -/
def lasting (bus : Bus κ ι α) (kind : κ) : List (Subscription ι) :=
  (bus.living kind).filter (! ·.oneShot)

/-- The bus after an event of a kind. -/
def relisted (bus : Bus κ ι α) (kind : κ) : Bus κ ι α :=
  { bus with lists := bus.lists.insert kind (bus.lasting kind), hands := [] }

/-- Between publications, every kind has one living subscription, which is not for one event. A
publication may visit more subscriptions than any list has. -/
structure OneEach (bus : Bus κ ι α) (patience : Nat) : Prop extends bus.Idle where
  hands : bus.hands = []
  ears : ∀ kind, ∃ ear, bus.living kind = [ear] ∧ ear.oneShot = false
  within : ∀ kind, (bus.list kind).length < patience

/-! ## Who is alive -/

omit [DecidableEq ι] in
/-- What a list holds strongly, the bus keeps alive. -/
theorem mem_flatMap_strong_iff {listener : ι} :
    listener ∈ bus.lists.entries.flatMap (fun entry => strong entry.2) ↔
      ∃ kind, listener ∈ strong (bus.list kind) := by
  rw [List.mem_flatMap]
  constructor
  · intro hmem
    obtain ⟨⟨kind, list⟩, hentry, hlistener⟩ := hmem
    refine ⟨kind, ?_⟩
    rw [Bus.list, Ledger.mem_entries_iff.1 hentry]
    exact hlistener
  · intro hmem
    obtain ⟨kind, hlistener⟩ := hmem
    rw [Bus.list] at hlistener
    cases hget : bus.lists.get? kind with
    | none =>
      rw [hget] at hlistener
      cases hlistener
    | some list =>
      rw [hget] at hlistener
      exact ⟨(kind, list), Ledger.mem_entries_iff.2 hget, hlistener⟩

omit [DecidableEq ι] in
theorem mem_kept_iff (hwalk : bus.walk = none) {listener : ι} :
    listener ∈ bus.kept ↔ listener ∈ bus.hands ∨ ∃ kind, listener ∈ strong (bus.list kind) := by
  rw [kept, List.mem_append, mem_flatMap_strong_iff]
  simp [hwalk, walked, strong]

/-- The bus in a walk over the list of a kind. -/
def walking (bus : Bus κ ι α) (kind : κ) (hand : Option ι) : Bus κ ι α :=
  { bus with walk := some { kind, inHand := hand } }

omit [DecidableEq ι] in
theorem mem_kept_walking_iff (hwalk : bus.walk = none) {hand : Option ι} {listener : ι} :
    listener ∈ (bus.walking kind hand).kept ↔ hand = some listener ∨ listener ∈ bus.kept := by
  have hflat : (bus.walking kind hand).lists.entries.flatMap (fun entry => strong entry.2) =
      bus.lists.entries.flatMap (fun entry => strong entry.2) := rfl
  have hwalked : (bus.walking kind hand).walked = bus.list kind := rfl
  rw [mem_kept_iff hwalk, kept, hflat, hwalked, List.mem_append, mem_flatMap_strong_iff]
  simp only [walking, List.mem_append, Option.bind_some, Option.mem_toList]
  constructor
  · intro h
    rcases h with ((hhands | hhand) | hlist) | hlists
    · exact .inr (.inl hhands)
    · exact .inl hhand
    · exact .inr (.inr ⟨kind, hlist⟩)
    · exact .inr (.inr hlists)
  · intro h
    rcases h with hhand | hhands | hlists
    · exact .inl (.inl (.inr hhand))
    · exact .inl (.inl (.inl hhands))
    · exact .inr hlists

theorem alive_iff {listener : ι} :
    bus.alive listener = true ↔ listener ∉ bus.dropped ∨ listener ∈ bus.kept := by
  simp [alive]

/-- A walk that has a listener in hand which is alive anyway makes no difference to who is alive. -/
theorem alive_walking (hwalk : bus.walk = none) {hand : Option ι}
    (hhand : ∀ listener ∈ hand, bus.alive listener = true) (listener : ι) :
    (bus.walking kind hand).alive listener = bus.alive listener := by
  rw [Bool.eq_iff_iff, alive_iff, mem_kept_walking_iff hwalk]
  constructor
  · intro h
    rcases h with hdropped | hinHand | hkept
    · exact alive_iff.2 (.inl hdropped)
    · exact hhand listener hinHand
    · exact alive_iff.2 (.inr hkept)
  · intro h
    exact (alive_iff.1 h).imp id .inr

theorem isLost_walking (hwalk : bus.walk = none) {hand : Option ι}
    (hhand : ∀ listener ∈ hand, bus.alive listener = true) (subscription : Subscription ι) :
    (bus.walking kind hand).isLost subscription = bus.isLost subscription := by
  rw [isLost, isLost, alive_walking hwalk hhand]

/-- A subscription that is in a list and is not lost has a listener that is alive. -/
theorem alive_of_not_lost (hwalk : bus.walk = none) {subscription : Subscription ι}
    (hmem : subscription ∈ bus.list kind) (hlost : bus.isLost subscription = false) :
    bus.alive subscription.listener = true := by
  cases hweak : subscription.weak with
  | true =>
    rw [isLost, hweak, Bool.true_and, Bool.not_eq_false'] at hlost
    exact hlost
  | false =>
    have hstrong : subscription.listener ∈ strong (bus.list kind) :=
      List.mem_map_of_mem (List.mem_filter.2 ⟨hmem, by rw [hweak]; rfl⟩)
    exact alive_iff.2 (.inr ((mem_kept_iff hwalk).2 (.inr ⟨kind, hstrong⟩)))

/-! ## What an event leaves behind -/

/-- Subscriptions that have lost their listeners hold nothing strongly. -/
theorem strong_living (bus : Bus κ ι α) (kind : κ) :
    strong (bus.living kind) = strong (bus.list kind) := by
  rw [strong, strong, living, List.filter_filter]
  congr 2
  funext subscription
  cases hweak : subscription.weak <;> simp [isLost, hweak]

section Relisted

variable (hidle : bus.Idle) (hstay : bus.lasting kind = bus.living kind)

include hidle hstay

/-- An event that ends no subscription to a living listener makes no difference to who is alive,
if the bus has nothing in hand. -/
theorem alive_relisted (hhands : bus.hands = []) (listener : ι) :
    (bus.relisted kind).alive listener = bus.alive listener := by
  have hlists : ∀ other, strong ((bus.relisted kind).list other) = strong (bus.list other) := by
    intro other
    by_cases hother : other = kind
    · rw [hother, ← strong_living bus kind, ← hstay]
      exact congrArg strong (list_insert_self bus kind _)
    · exact congrArg strong (list_insert_of_ne bus hother _)
  have hwalk : (bus.relisted kind).walk = none := hidle.walk
  rw [Bool.eq_iff_iff, alive_iff, alive_iff, mem_kept_iff hwalk, mem_kept_iff hidle.walk, hhands]
  simp only [hlists]
  rfl

theorem living_relisted (hhands : bus.hands = []) (other : κ) :
    (bus.relisted kind).living other = bus.living other := by
  have hlost : (fun subscription => ! (bus.relisted kind).isLost subscription) =
      fun subscription => ! bus.isLost subscription := by
    funext subscription
    rw [isLost, isLost, alive_relisted hidle hstay hhands]
  rw [living, living, hlost]
  by_cases hother : other = kind
  · rw [hother, show (bus.relisted kind).list kind =
      bus.lasting kind from list_insert_self bus kind _,
      hstay, living, List.filter_filter]
    simp only [Bool.and_self]
  · exact congrArg _ (list_insert_of_ne bus hother _)

end Relisted

namespace OneEach

variable {patience : Nat}

theorem lasting (h : bus.OneEach patience) (kind : κ) : bus.lasting kind = bus.living kind := by
  obtain ⟨ear, hliving, hone⟩ := h.ears kind
  rw [Bus.lasting, hliving, List.filter_cons_of_pos (by rw [hone]; rfl)]
  rfl

theorem relisted (h : bus.OneEach patience) (kind : κ) : (bus.relisted kind).OneEach patience where
  queue := h.queue
  walk := h.walk
  hands := rfl
  ears other := by
    rw [living_relisted h.toIdle (h.lasting kind) h.hands]
    exact h.ears other
  within other := by
    refine Nat.lt_of_le_of_lt ?_ (h.within other)
    by_cases hother : other = kind
    · rw [hother, show (bus.relisted kind).list kind =
        bus.lasting kind from list_insert_self bus kind _,
        h.lasting]
      exact List.length_filter_le _ _
    · exact Nat.le_of_eq (congrArg List.length (list_insert_of_ne bus hother _))

/-- A kind that something listens for has a list. -/
theorem contains (h : bus.OneEach patience) (kind : κ) : bus.lists.contains kind = true := by
  obtain ⟨ear, hliving, -⟩ := h.ears kind
  cases hcontains : bus.lists.contains kind with
  | true => rfl
  | false =>
    rw [living, list_of_not_contains hcontains] at hliving
    cases hliving

end OneEach

end Bus

/-! ## Publishing -/

namespace Live

variable [DecidableEq κ] [DecidableEq ι] {audience : Audience κ ι α ρ} {bus : Bus κ ι α} {kind : κ}
  {event : Event κ α}

section Steps

variable {fuel place : Nat} {places : List Nat} {hand : Option ι} {subscription : Subscription ι}

/-- A walk passes over a subscription that has lost its listener. -/
theorem walkFrom_of_lost (hwalk : bus.walk = none)
    (hhand : ∀ listener ∈ hand, bus.alive listener = true)
    (hat : (bus.list kind)[place]? = some subscription) (hlost : bus.isLost subscription = true)
    (rest : ρ) :
    walkFrom audience (fuel + 1) place places event ⟨bus.walking kind hand, rest⟩ =
      walkFrom audience fuel (place + 1) (place :: places) event ⟨bus.walking kind none, rest⟩ := by
  have hwalked : (bus.walking kind hand).walked = bus.list kind := rfl
  have hlost' :
      (subscription.weak && ! (bus.walking kind hand).alive subscription.listener) = true :=
    (Bus.isLost_walking hwalk hhand subscription).trans hlost
  rw [walkFrom, hwalked, hat]
  exact if_pos hlost'

/-- A walk calls the listener of a subscription that has not lost it. -/
theorem walkFrom_of_living (hlistens : audience.Listens) (hwalk : bus.walk = none)
    (hhand : ∀ listener ∈ hand, bus.alive listener = true) (hfresh : event.consumed = false)
    (hat : (bus.list kind)[place]? = some subscription) (hlost : bus.isLost subscription = false)
    (rest : ρ) :
    let called : Live κ ι α ρ := ⟨bus.walking kind (some subscription.listener), rest⟩
    walkFrom audience (fuel + 1) place places event ⟨bus.walking kind hand, rest⟩ =
      walkFrom audience fuel (place + 1)
        (if subscription.oneShot then place :: places else places) event
        ⟨called.bus, (audience.call subscription.listener event called).state.rest⟩ := by
  intro called
  have hwalked : (bus.walking kind hand).walked = bus.list kind := rfl
  have hlost' :
      (subscription.weak && ! (bus.walking kind hand).alive subscription.listener) = false :=
    (Bus.isLost_walking hwalk hhand subscription).trans hlost
  have hbus := hlistens.bus subscription.listener event called
  have hconsumed := hlistens.consumed subscription.listener event called
  have hfailed := hlistens.failed subscription.listener event called
  have htake :
      (⟨bus.walking kind hand, rest⟩ : Live κ ι α ρ).take subscription.listener = called := rfl
  rw [walkFrom, hwalked, hat]
  dsimp only
  rw [hlost', if_neg Bool.false_ne_true, htake]
  generalize audience.call subscription.listener event called = reply at hbus hconsumed hfailed
  obtain ⟨⟨bus', rest'⟩, consumed, failed⟩ := reply
  dsimp only at hbus hconsumed hfailed ⊢
  subst hbus hconsumed hfailed
  rw [hfresh, if_neg Bool.false_ne_true, if_neg Bool.false_ne_true]
  congr 1
  rw [← hfresh]

end Steps

/-- What the rest of a walk over a list comes to, if its listeners only listen: those that live
hear the event, and those that stay are left. -/
theorem exists_walkFrom_of_listens (hlistens : audience.Listens) (hwalk : bus.walk = none)
    (hfresh : event.consumed = false) {fuel place : Nat} {places : List Nat} {hand : Option ι}
    (hhand : ∀ listener ∈ hand, bus.alive listener = true) (hremovable : Removable place places)
    (hplace : place ≤ (bus.list kind).length) (hfuel : (bus.list kind).length < place + fuel)
    (rest : ρ) :
    let ahead := ((bus.list kind).drop place).filter (! bus.isLost ·)
    ∃ hand' places' rest',
      walkFrom audience fuel place places event ⟨bus.walking kind hand, rest⟩ =
        some (event, endWalk ⟨bus.walking kind hand', rest'⟩ places') ∧
      audience.Hears event (ahead.map (·.listener)) rest rest' ∧
      removeAt (bus.list kind) places' =
        removeAt ((bus.list kind).take place) places ++ ahead.filter (! ·.oneShot) := by
  induction fuel generalizing place places hand rest with
  | zero => omega
  | succ fuel ih =>
    cases hat : (bus.list kind)[place]? with
    | none =>
      have hend : (bus.list kind).length ≤ place := List.getElem?_eq_none_iff.1 hat
      have hwalked : (bus.walking kind hand).walked = bus.list kind := rfl
      refine ⟨hand, places, rest, ?_, ?_, ?_⟩
      · rw [walkFrom, hwalked, hat]
      · rw [List.drop_of_length_le hend]
        exact .nil
      · rw [List.drop_of_length_le hend, List.take_of_length_le hend]
        exact (List.append_nil _).symm
    | some subscription =>
      obtain ⟨hlt, hget⟩ := List.getElem?_eq_some_iff.1 hat
      rw [List.drop_eq_getElem_cons hlt, hget]
      cases hlost : bus.isLost subscription with
      | true =>
        have hnone : ∀ listener ∈ (none : Option ι), bus.alive listener = true := by
          intro listener hmem
          cases hmem
        rw [walkFrom_of_lost hwalk hhand hat hlost, List.filter_cons_of_neg (by simp [hlost]),
          ← removeAt_take_cons hlt places]
        exact ih hnone hremovable.cons hlt (by omega) rest
      | false =>
        have hinHand : ∀ listener ∈ some subscription.listener, bus.alive listener = true := by
          intro listener hmem
          cases hmem
          exact Bus.alive_of_not_lost hwalk (List.mem_of_getElem? hat) hlost
        rw [walkFrom_of_living hlistens hwalk hhand hfresh hat hlost,
          List.filter_cons_of_pos (by simp [hlost])]
        obtain ⟨hand', places', rest', hon, hhears, hleft⟩ := ih hinHand
          (hremovable.note subscription.oneShot) hlt (by omega)
            (audience.call subscription.listener event
            ⟨bus.walking kind (some subscription.listener), rest⟩).state.rest
        refine ⟨hand', places', rest', hon, .cons _ hhears, hleft.trans ?_⟩
        cases hone : subscription.oneShot with
        | true => rw [if_pos rfl, removeAt_take_cons hlt, List.filter_cons_of_neg (by simp [hone])]
        | false =>
          rw [if_neg Bool.false_ne_true, removeAt_take_succ hat hremovable, List.append_assoc,
            List.filter_cons_of_pos (by simp [hone])]
          rfl

/-- Publishing to listeners that only listen. -/
theorem exists_publish_of_listens (hlistens : audience.Listens) (hidle : bus.Idle)
    (hkind : bus.lists.contains event.kind = true) (hfresh : event.consumed = false) {fuel : Nat}
    (hfuel : (bus.list event.kind).length < fuel) (rest : ρ) :
    ∃ rest', audience.Hears event ((bus.living event.kind).map (·.listener)) rest rest' ∧
      publish audience fuel event ⟨bus, rest⟩ = some (event, ⟨bus.relisted event.kind, rest'⟩) := by
  have hnone : ∀ listener ∈ (none : Option ι), bus.alive listener = true := by
    intro listener hmem
    cases hmem
  have hremovable : Removable 0 [] := trivial
  have hfuel' : (bus.list event.kind).length < 0 + fuel := by omega
  obtain ⟨hand, places, rest', hon, hhears, hleft⟩ :=
    exists_walkFrom_of_listens hlistens hidle.walk hfresh
    hnone hremovable (Nat.zero_le (bus.list event.kind).length) hfuel' rest
  refine ⟨rest', hhears, ?_⟩
  let ended := endWalk ⟨bus.walking event.kind hand, rest'⟩ places
  have hdispatch : dispatch audience fuel event ⟨bus, rest⟩ = some (event, ended) := by
    rw [dispatch, if_pos hkind]
    exact hon
  have hqueue : ended.bus.queue = [] := hidle.queue
  have hdrain : drain audience fuel fuel ended = some ended := by
    cases fuel with
    | zero => rw [drain, hqueue, List.isEmpty_nil, if_pos rfl]
    | succ fuel => rw [drain, hqueue]
  have hleft' : removeAt (bus.walking event.kind hand).walked places = bus.lasting event.kind :=
    hleft
  have hended :
      ended.mapBus (fun bus => { bus with hands := [] }) = ⟨bus.relisted event.kind, rest'⟩ := by
    rw [Bus.relisted, ← hleft', hidle.walk]
    rfl
  rw [publish, hidle.walk, Option.isSome_none, if_neg Bool.false_ne_true]
  show (dispatch audience fuel event ⟨bus, rest⟩).bind _ = _
  rw [hdispatch]
  show (drain audience fuel fuel ended).bind _ = _
  rw [hdrain]
  exact congrArg (fun live => some (event, live)) hended

/-- Where every kind has one living subscription, an event is heard once, and it stays so. -/
theorem exists_publish_of_oneEach (hlistens : audience.Listens) {fuel : Nat}
    (hbus : bus.OneEach fuel) (hfresh : event.consumed = false) (rest : ρ) :
    ∃ bus' listener between, bus'.OneEach fuel ∧
      publish audience fuel event ⟨bus, rest⟩ =
        some (event, ⟨bus', (audience.call listener event ⟨between, rest⟩).state.rest⟩) := by
  obtain ⟨ear, hliving, -⟩ := hbus.ears event.kind
  obtain ⟨rest', hhears, hpublish⟩ := exists_publish_of_listens hlistens hbus.toIdle
    (hbus.contains event.kind) hfresh (hbus.within event.kind) rest
  rw [hliving] at hhears
  cases hhears with
  | cons between hnil =>
    cases hnil
    exact ⟨_, ear.listener, between, hbus.relisted event.kind, hpublish⟩

end Live

end Colloquy
