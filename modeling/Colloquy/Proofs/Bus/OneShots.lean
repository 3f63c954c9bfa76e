import Colloquy.Proofs.Bus.Copies

/-!
# Subscriptions for one event

A subscription for one event is to be called once. That it ends is noted during the walk, by its
place in the walked list, and done when the walk is over. Listeners can spoil that in two ways
(`not_called_once`): a subscription ahead of the listener that makes it moves what has been noted,
and unsubscribing another listener sets the walked list apart, so that the new list keeps what has
been called.

Nothing else spoils it (`called_at_most_once`). What a subscription may still get in calls is what
is ahead of the walk and what is in a list that is not walked (`Bus.due`), and that is paid for by
subscribing.
-/

namespace Colloquy

open Bus (Deed Mark)

variable {κ ι α ρ : Type} [DecidableEq κ] [DecidableEq ι]

namespace Bus

/-- The listener of a subscription to a kind is called. -/
def Mark.serves (kind : κ) (subscription : Subscription ι) : Mark κ ι α → Bool
  | .begun served event _ => event.kind = kind && served = subscription
  | _ => false

/-- A listener that unsubscribes one from the walked kind leaves no copy of a subscription in the
list. -/
def Mark.TakesAlong (kind : κ) (subscription : Subscription ι) : Mark κ ι α → Prop
  | .did (some _) (.unsubscribe other listener) bus =>
    other = kind → bus.Walks kind → subscription ∈ bus.list kind → subscription.listener = listener
  | _ => True

/-- The calls that copies of a subscription to a kind may still get, if each of them gets one. -/
def due (bus : Bus κ ι α) (kind : κ) (place : Nat) (subscription : Subscription ι) : Nat :=
  (if bus.walkKind? = some kind then bus.ahead place subscription else 0) +
    if bus.Walks kind then 0 else (bus.list kind).count subscription

variable {live : Live κ ι α ρ} {bus : Bus κ ι α} {kind walked : κ} {place : Nat} {places : List Nat}
  {subscription served : Subscription ι} {deed : Deed κ ι α}

theorem due_beginWalk (live : Live κ ι α ρ) (walked kind : κ) (subscription : Subscription ι) :
    (live.beginWalk walked).bus.due kind 0 subscription =
      (live.bus.list kind).count subscription := by
  have hwalks := live.walks_beginWalk walked
  have hahead : (live.beginWalk walked).bus.ahead 0 subscription =
      (live.bus.list walked).count subscription := rfl
  rw [due, hwalks.walkKind?, hahead]
  by_cases hkind : walked = kind
  · subst hkind
    rw [if_pos rfl, if_pos hwalks, Nat.add_zero]
  · have hnot : ¬ (live.beginWalk walked).bus.Walks kind := fun h =>
      hkind (Option.some.inj (hwalks.walkKind?.symm.trans h.walkKind?))
    rw [if_neg (by simpa using hkind), if_neg hnot, Nat.zero_add]
    rfl

theorem due_take (live : Live κ ι α ρ) (listener? : Option ι) (kind : κ) (place : Nat)
    (subscription : Subscription ι) :
    (live.take listener?).bus.due kind place subscription =
      live.bus.due kind place subscription := by
  have hlist : (live.take listener?).bus.list kind = live.bus.list kind := rfl
  simp only [due, ahead, Live.walkKind?_take, Live.walks_take_iff, Live.walked_take, hlist]

/-- When a walk goes on by one step, the subscription at its place is no longer due. -/
theorem due_step (h : bus.Reaches walked place places) (hat : bus.walked[place]? = some served)
    (kind : κ) (subscription : Subscription ι) :
    (walked = kind && served = subscription : Bool).toNat + bus.due kind (place + 1) subscription =
      bus.due kind place subscription := by
  have hahead := ahead_of_getElem? hat subscription
  simp only [due, h.kind, Option.some.injEq]
  by_cases hkind : walked = kind
  · simp only [hkind, if_true, hahead, decide_true, Bool.true_and]
    omega
  · simp only [hkind, if_false, decide_false, Bool.false_and, Bool.toNat_false, Nat.zero_add]

/-- At the end of a walk, what is due is in the lists, if what is noted has been called. -/
theorem count_endWalk_le (h : live.bus.Reaches walked place places)
    (hbehind : walked = kind → live.bus.behind place places subscription = 0) :
    ((live.endWalk places).bus.list kind).count subscription ≤
      live.bus.due kind place subscription := by
  by_cases hwalks : live.bus.Walks kind
  · have hkind : walked = kind := Option.some.inj (h.kind.symm.trans hwalks.walkKind?)
    subst hkind
    rw [count_endWalk h hwalks, hbehind rfl, due, if_pos h.kind]
    omega
  · rw [Live.list_endWalk_of_not_walks hwalks, due, if_neg hwalks]
    exact Nat.le_add_left _ _

/-- A deed makes due at most what it subscribes. -/
theorem due_apply (h : bus.Reaches walked (place + 1) places)
    (hat : walked = kind → bus.walked[place]? = some served)
    (hbehind : (Mark.did (some served) deed bus).StaysBehind kind)
    (htakes : (Mark.did (some served) deed bus).TakesAlong kind subscription) :
    (bus.apply deed).due kind (place + 1) subscription ≤
      bus.due kind (place + 1) subscription + (deed.makes kind subscription).toNat := by
  have hcount := deed.count_edit_le kind subscription (bus.list kind)
  rw [← list_apply] at hcount
  rw [due, due, walkKind?_apply, h.kind]
  by_cases hkind : walked = kind
  · subst hkind
    have hahead := ahead_apply h (hat rfl) hbehind subscription
    rw [if_pos rfl, if_pos rfl, hahead]
    by_cases hwalks' : (bus.apply deed).Walks walked
    · rw [if_pos hwalks', if_pos hwalks'.of_apply, if_pos hwalks'.of_apply]
      omega
    · rw [if_neg hwalks']
      by_cases hwalks : bus.Walks walked
      · -- The deed has set the walked list apart, and the new list holds no copy.
        rw [if_pos hwalks, if_pos hwalks]
        have hnone : ((bus.apply deed).list walked).count subscription = 0 := by
          rw [list_apply, List.count_eq_zero]
          intro hmem
          cases deed with
          | unsubscribe other listener =>
            have hother : other = walked :=
              Decidable.of_not_not fun hother => hwalks' (Walks.apply hwalks hother)
            rw [Deed.edit, if_pos hother, List.mem_filter] at hmem
            simp [htakes hother hwalks hmem.1] at hmem
          | clear other =>
            rw [Deed.edit] at hmem
            split at hmem
            · cases hmem
            · next hother => exact hwalks' (hwalks.apply hother)
          | clearAll => cases hmem
          | subscribe other made => exact hwalks' (hwalks.apply id)
          | publish event => exact hwalks' (hwalks.apply id)
          | drop listener => exact hwalks' (hwalks.apply id)
        omega
      · rw [if_neg hwalks, if_neg hwalks]
        omega
  · have hsome : ¬ some walked = some kind := fun h => hkind (Option.some.inj h)
    have hnot : ¬ bus.Walks kind := fun hwalks => hsome (h.kind.symm.trans hwalks.walkKind?)
    have hnot' : ¬ (bus.apply deed).Walks kind := fun hwalks' => hnot hwalks'.of_apply
    rw [if_neg hsome, if_neg hsome, if_neg hnot, if_neg hnot']
    omega

end Bus

/-- The calls of a subscription for one event are paid for, and it is gone from behind the walk. -/
def Watch.oneShots (kind : κ) (subscription : Subscription ι) : Watch κ ι α :=
  let Fair (mark : Mark κ ι α) : Prop := mark.StaysBehind kind ∧ mark.TakesAlong kind subscription
  let Paid := Budget Fair (Mark.serves kind subscription) (Mark.makes kind subscription) 0
  { idle := fun marks bus => Paid marks ((bus.list kind).count subscription)
    walking := fun marks event place places bus =>
      Paid marks (bus.due kind place subscription) ∧
        ((∀ mark ∈ marks, Fair mark) → event.kind = kind → bus.behind place places subscription = 0)
    serving := fun marks event served place places bus =>
      Paid marks (bus.due kind (place + 1) subscription) ∧
        ((∀ mark ∈ marks, Fair mark) → event.kind = kind →
          bus.walked[place]? = some served ∧
            bus.behind (place + 1) (served.noted place places) subscription = 0) }

theorem Watch.kept_oneShots (kind : κ) {subscription : Subscription ι}
    (hone : subscription.oneShot = true) :
    (Watch.oneShots kind subscription : Watch κ ι α).Kept ρ where
  congr h hlist := ⟨h.always, fun hfair => by rw [hlist]; exact h.due hfair⟩
  host {marks bus} deed h := by
    have hcount := deed.count_edit_le kind subscription (bus.list kind)
    rw [← Bus.list_apply] at hcount
    exact h.free rfl fun _ _ => hcount
  unheard {marks bus event} hlist h := by
    rw [List.append_cons]
    exact (h.free rfl fun _ _ => Nat.le_refl _).free rfl fun _ _ => Nat.le_refl _
  taken {marks event live} h := by
    refine ⟨h.free rfl fun _ _ => ?_, fun _ _ => rfl⟩
    rw [Bus.due_beginWalk]
    exact Nat.le_refl _
  skipped {marks event place places served live} hreaches hat h := by
    have hdue := Bus.due_step hreaches hat kind subscription
    refine ⟨h.1.free rfl fun _ _ => ?_, fun hfair hkind => ?_⟩
    · rw [Bus.due_take, ← hdue]
      exact Nat.le_add_left _ _
    · have hbehind := h.2 (List.forall_mem_append.1 hfair).1 hkind
      have hstep := Bus.behind_step hat hreaches.removable true subscription
      rw [hbehind] at hstep
      rw [Bus.behind, Live.walked_take]
      exact hstep
  begun {marks event place places served live} hreaches hat h := by
    have hdue := Bus.due_step hreaches hat kind subscription
    refine ⟨h.1.concat fun _ _ => ?_, fun hfair hkind => ?_⟩
    · rw [Bus.due_take]
      exact Nat.le_of_eq hdue
    · have hbehind := h.2 (List.forall_mem_append.1 hfair).1 hkind
      have hstep := Bus.behind_step hat hreaches.removable served.oneShot subscription
      have hgone : (! served.oneShot && decide (served = subscription)) = false := by
        by_cases hserved : served = subscription
        · simp [hserved, hone]
        · simp [hserved]
      rw [hbehind, hgone] at hstep
      rw [Bus.behind, Live.walked_take]
      exact ⟨hat, hstep⟩
  did {marks event place places served bus} deed hreaches h := by
    refine ⟨h.1.free rfl fun hmarks hfair => ?_, fun hfair hkind => ?_⟩
    · exact Bus.due_apply hreaches (fun hkind => (h.2 hmarks hkind).1) hfair.1 hfair.2
    · obtain ⟨hmarks, hlast⟩ := List.forall_mem_append.1 hfair
      obtain ⟨hat, hbehind⟩ := h.2 hmarks hkind
      have hstays := (hlast _ List.mem_cons_self).1
      rw [← hkind] at hstays
      refine ⟨Bus.getElem?_walked_apply hreaches hat hstays, ?_⟩
      rw [Bus.behind, Bus.take_walked_apply hreaches hat hstays]
      exact hbehind
  ended {marks event place places served bus} consumed failed h :=
    ⟨h.1.free rfl fun _ _ => Nat.le_refl _, fun hfair hkind =>
      (h.2 (List.forall_mem_append.1 hfair).1 hkind).2⟩
  finished {marks event place places live} hreaches h :=
    h.1.free rfl fun hmarks _ => Bus.count_endWalk_le hreaches (h.2 hmarks)

namespace Live

variable {audience : Audience κ ι α ρ} {manners : Manners κ ι α ρ} {live' : Live κ ι α ρ}

/-- A host does what it likes from a new bus on, and so do listeners. There is an account of that.
In every account and at every time, the listeners of copies of a subscription for one event have
been called at most as often as such copies have been made, as long as no listener has subscribed
to the walked kind ahead of itself, or unsubscribed another listener from it and left a copy in
the list. -/
theorem called_at_most_once {fuel bound : Nat} {deeds : List (Deed κ ι α)} {rest : ρ}
    (hfollows : audience.Follows fuel manners)
    (hdeeds : performAll audience bound deeds ⟨{}, rest⟩ = some live') :
    (∃ marks, Runs manners audience.report (.perform none deeds) ⟨{}, rest⟩ marks live') ∧
      ∀ marks live'', Runs manners audience.report (.perform none deeds) ⟨{}, rest⟩ marks live'' →
        ∀ kind (subscription : Subscription ι), subscription.oneShot = true →
          ∀ first, first <+: marks →
            (∀ mark ∈ first, mark.StaysBehind kind ∧ mark.TakesAlong kind subscription) →
              first.countP (Mark.serves kind subscription) ≤
                first.countP (Mark.makes kind subscription) := by
  have hnew : (⟨{}, rest⟩ : Live κ ι α ρ).bus.Idle := ⟨rfl, rfl⟩
  refine ⟨(exists_account hfollows hnew hdeeds).2, ?_⟩
  intro marks live'' hruns kind subscription hone first hfirst hfair
  have hpaid := (Watch.kept_oneShots kind hone).holds (.nil (Nat.le_refl 0)) hruns
  have hcalls := hpaid.always first hfirst hfair
  rw [Nat.zero_add] at hcalls
  exact hcalls

/-- A listener is subscribed for one event. When it is called, it ends its subscription itself,
publishes another event and subscribes a second listener, again for one event. -/
theorem called_at_most_once_self :
    let manners : Manners Unit Nat Nat (List Nat) := fun listener event live =>
      { deeds :=
          if listener = 0 then
            [.unsubscribe () 0, .publish ⟨(), 1, false⟩,
              .subscribe () { listener := 1, oneShot := true }]
          else []
        rest := live.rest ++ [listener]
        consumed := event.consumed }
    let audience := Audience.ofManners manners fun _ calls => calls
    let deeds : List (Deed Unit Nat Nat) :=
      [.subscribe () { listener := 0, oneShot := true }, .publish ⟨(), 0, false⟩]
    ∃ live' marks, performAll audience 3 deeds ⟨{}, []⟩ = some live' ∧ live'.rest = [0, 1] ∧
      live'.bus.list () = [] ∧
      Runs manners audience.report (.perform none deeds) ⟨{}, []⟩ marks live' ∧
      (∀ mark ∈ marks, mark.StaysBehind () ∧
        mark.TakesAlong () { listener := 0, oneShot := true }) ∧
      marks.countP (Mark.serves () { listener := 0, oneShot := true }) ≤
        marks.countP (Mark.makes () { listener := 0, oneShot := true }) := by
  intro manners audience deeds
  obtain ⟨live', marks, hdeeds, hrest, hlist, hruns, hfair⟩ : ∃ live' marks,
      performAll audience 3 deeds ⟨{}, []⟩ = some live' ∧ live'.rest = [0, 1] ∧
      live'.bus.list () = [] ∧
        Runs manners audience.report (.perform none deeds) ⟨{}, []⟩ marks live' ∧
        ∀ mark ∈ marks, mark.StaysBehind () ∧
          mark.TakesAlong () { listener := 0, oneShot := true } := by
    have hruns : Runs manners audience.report (.perform none deeds) ⟨{}, []⟩ _ _ :=
      .apply (.inl rfl) (.publish rfl
        (.dispatch rfl
          (.serve rfl rfl rfl (.apply (.inr rfl) (.apply (.inr rfl) (.apply (.inr rfl) .rest)))
            (.finished (.inr rfl)))
          (.drain rfl (.dispatch rfl (.serve rfl rfl rfl .rest (.finished (.inr rfl))) (.dry rfl))
            (.dry rfl)))
        .rest)
    refine ⟨_, _, rfl, rfl, rfl, hruns, ?_⟩
    simp [Mark.StaysBehind, Mark.TakesAlong]
  have honce := (called_at_most_once (Audience.follows_ofManners manners _ 0) hdeeds).2
  exact ⟨live', marks, hdeeds, hrest, hlist, hruns, hfair,
    honce marks live' hruns () _ rfl marks (List.prefix_refl marks) hfair⟩

/-- A listener for one event unsubscribes another one when it is called, and so is called again. -/
theorem not_called_once :
    let manners : Manners Unit Nat Unit (List Nat) := fun listener event live =>
      { deeds := if listener = 0 then [.unsubscribe () 1] else []
        rest := live.rest ++ [listener]
        consumed := event.consumed }
    let audience := Audience.ofManners manners fun _ calls => calls
    let subscription : Subscription Nat := { listener := 0, oneShot := true }
    let deeds : List (Deed Unit Nat Unit) :=
      [.subscribe () subscription, .publish ⟨(), (), false⟩, .publish ⟨(), (), false⟩]
    ∃ live' marks, performAll audience 3 deeds ⟨{}, []⟩ = some live' ∧ live'.rest = [0, 0] ∧
      Runs manners audience.report (.perform none deeds) ⟨{}, []⟩ marks live' ∧
      marks.countP (Mark.makes () subscription) = 1 ∧
      marks.countP (Mark.serves () subscription) = 2 := by
  intro manners audience subscription deeds
  have hruns : Runs manners audience.report (.perform none deeds) ⟨{}, []⟩ _ _ :=
    .apply (.inl rfl)
      (.publish rfl
        (.dispatch rfl (.serve rfl rfl rfl (.apply (.inr rfl) .rest) (.finished (.inr rfl)))
          (.dry rfl))
        (.publish rfl
          (.dispatch rfl (.serve rfl rfl rfl (.apply (.inr rfl) .rest) (.finished (.inr rfl)))
            (.dry rfl))
          .rest))
  exact ⟨_, _, rfl, rfl, hruns, rfl, rfl⟩

end Live

end Colloquy
