import Colloquy.Proofs.Bus.Turns

/-!
# Watches over accounts

A watch says something of the marks so far and of the bus, one thing while nothing is dispatched,
another one in the middle of a walk, and a third one while a listener is being called. If every
step keeps it (`Watch.Kept`), it holds throughout: the induction over an account is done here once
(`Watch.Kept.run`, `Watch.Kept.holds`). What every walk keeps on its own is given to the steps
(`Bus.Reaches`): the lists are in order of priority, and the places that the walk has noted are
there.
-/

namespace Colloquy

open Bus (Deed Mark)

variable {κ ι α ρ : Type}

/-- The places that a walk has noted when it has served the subscription at a place. -/
def Subscription.noted (subscription : Subscription ι) (place : Nat) (places : List Nat) :
    List Nat :=
  if subscription.oneShot then place :: places else places

/-- What is said of the marks so far and of the bus. -/
structure Watch (κ ι α : Type) where
  idle : List (Mark κ ι α) → Bus κ ι α → Prop
  /-- The walk for an event has come to a place and has noted some places. -/
  walking : List (Mark κ ι α) → Event κ α → Nat → List Nat → Bus κ ι α → Prop
  /-- The listener of the subscription at that place is being called. -/
  serving : List (Mark κ ι α) → Event κ α → Subscription ι → Nat → List Nat → Bus κ ι α → Prop

variable [DecidableEq κ]

/-- Where the walk for an event of a kind has come to, and the places that it has noted. -/
structure Bus.Reaches (bus : Bus κ ι α) (kind : κ) (place : Nat) (places : List Nat) : Prop where
  ordered : bus.Ordered
  kind : bus.walkKind? = some kind
  removable : Removable place places
  place_le : place ≤ bus.walked.length

namespace Bus.Reaches

variable {live : Live κ ι α ρ} {bus : Bus κ ι α} {kind : κ} {place : Nat} {places : List Nat}
  {subscription : Subscription ι}

theorem begin (h : live.bus.Ordered) (kind : κ) : (live.beginWalk kind).bus.Reaches kind 0 [] :=
  ⟨live.ordered_beginWalk h kind, rfl, trivial, Nat.zero_le _⟩

theorem take (h : live.bus.Reaches kind place places) (listener? : Option ι) :
    (live.take listener?).bus.Reaches kind place places :=
  ⟨live.ordered_take h.ordered listener?, by rw [Live.walkKind?_take, h.kind], h.removable,
    by rw [Live.walked_take]; exact h.place_le⟩

theorem step (h : bus.Reaches kind place places) (hat : bus.walked[place]? = some subscription)
    (ends : Bool) : bus.Reaches kind (place + 1) (if ends then place :: places else places) :=
  ⟨h.ordered, h.kind, h.removable.note ends, (List.getElem?_eq_some_iff.1 hat).1⟩

theorem apply [DecidableEq ι] (h : bus.Reaches kind place places) (deed : Deed κ ι α) :
    (bus.apply deed).Reaches kind place places :=
  ⟨h.ordered.apply deed, by rw [walkKind?_apply, h.kind], h.removable,
    Nat.le_trans h.place_le (Live.length_walked_apply bus deed)⟩

end Bus.Reaches

namespace Watch

variable [DecidableEq ι]

/-- Every step keeps a watch. -/
structure Kept (ρ : Type) (watch : Watch κ ι α) : Prop where
  /-- Nothing counts between two dispatches but the lists. -/
  congr {marks bus bus'} (h : watch.idle marks bus)
    (hlist : ∀ kind, bus'.list kind = bus.list kind) :
    watch.idle marks bus'
  host {marks bus} (deed : Deed κ ι α) (h : watch.idle marks bus) :
    watch.idle (marks ++ [.did none deed bus]) (bus.apply deed)
  unheard {marks bus event} (hlist : bus.lists.contains event.kind = false)
    (h : watch.idle marks bus) :
    watch.idle (marks ++ [.taken event bus, .finished [] [] bus]) bus
  taken {marks event} {live : Live κ ι α ρ} (h : watch.idle marks live.bus) :
    watch.walking (marks ++ [.taken event live.bus]) event 0 [] (live.beginWalk event.kind).bus
  skipped {marks event place places subscription} {live : Live κ ι α ρ}
    (hreaches : live.bus.Reaches event.kind place places)
    (hat : live.bus.walked[place]? = some subscription)
    (h : watch.walking marks event place places live.bus) :
    watch.walking (marks ++ [.skipped subscription live.bus]) event (place + 1) (place :: places)
      (live.take none).bus
  begun {marks event place places subscription} {live : Live κ ι α ρ}
    (hreaches : live.bus.Reaches event.kind place places)
    (hat : live.bus.walked[place]? = some subscription)
    (h : watch.walking marks event place places live.bus) :
    watch.serving (marks ++ [.begun subscription event live.bus]) event subscription place places
      (live.take subscription.listener).bus
  did {marks event place places subscription bus} (deed : Deed κ ι α)
    (hreaches : bus.Reaches event.kind (place + 1) (subscription.noted place places))
    (h : watch.serving marks event subscription place places bus) :
    watch.serving (marks ++ [.did (some subscription) deed bus]) event subscription place places
      (bus.apply deed)
  ended {marks event place places subscription bus} (consumed failed : Bool)
    (h : watch.serving marks event subscription place places bus) :
    watch.walking (marks ++ [.ended subscription { event with consumed } failed])
      { event with consumed } (place + 1) (subscription.noted place places) bus
  finished {marks event place places} {live : Live κ ι α ρ}
    (hreaches : live.bus.Reaches event.kind place places)
    (h : watch.walking marks event place places live.bus) :
    watch.idle (marks ++ [.finished live.bus.walked places (live.endWalk places).bus])
      (live.endWalk places).bus

variable {watch : Watch κ ι α} {manners : Manners κ ι α ρ} {report : κ → ρ → ρ}
  {task : Live.Task κ ι α} {live live' : Live κ ι α ρ} {marks : List (Mark κ ι α)}

theorem Kept.deeds (h : watch.Kept ρ) {event : Event κ α} {subscription : Subscription ι}
    {place : Nat} {places : List Nat} (deeds : List (Deed κ ι α)) {bus : Bus κ ι α}
    (hreaches : bus.Reaches event.kind (place + 1) (subscription.noted place places))
    (hserving : watch.serving marks event subscription place places bus) :
    watch.serving (marks ++ Live.deedMarks (some subscription) bus deeds) event subscription
      place places
        (deeds.foldl Bus.apply bus) ∧
      (deeds.foldl Bus.apply bus).Reaches event.kind (place + 1)
        (subscription.noted place places) := by
  induction deeds generalizing marks bus with
  | nil => exact ⟨by rw [Live.deedMarks, List.append_nil]; exact hserving, hreaches⟩
  | cons deed deeds ih =>
    have hdeeds := ih (hreaches.apply deed) (h.did deed hreaches hserving)
    rw [List.append_assoc] at hdeeds
    exact hdeeds

/-- What a watch says when a task is done. -/
def OfTask (watch : Watch κ ι α) :
    Live.Task κ ι α → Live κ ι α ρ → List (Mark κ ι α) → Live κ ι α ρ → Prop
  | .perform (some _) _, _, _, _ => True
  | .walk place places event _, live, marks, live' => ∀ before,
    live.bus.Reaches event.kind place places → watch.walking before event place places live.bus →
      watch.idle (before ++ marks) live'.bus ∧ live'.bus.Ordered
  | _, live, marks, live' => ∀ before,
    live.bus.Ordered → watch.idle before live.bus →
      watch.idle (before ++ marks) live'.bus ∧ live'.bus.Ordered

theorem Kept.run (h : watch.Kept ρ) (hruns : Live.Runs manners report task live marks live') :
    watch.OfTask task live marks live' := by
  induction hruns with
  | @rest served live =>
    cases served with
    | none => exact fun before hordered hidle => ⟨(List.append_nil before).symm ▸ hidle, hordered⟩
    | some served => trivial
  | @apply served deed deeds live marks live' hdeed hdeeds ih =>
    cases served with
    | none =>
      intro before hordered hidle
      rw [List.append_cons]
      exact ih _ (hordered.apply deed) (h.host deed hidle)
    | some served => trivial
  | @publish served event deeds live first between second live' hwalk hdispatch hdeeds
      ihdispatch ihdeeds =>
    cases served with
    | none =>
      intro before hordered hidle
      have hhost : watch.idle (before ++ [.did none (.publish event) live.bus]) live.bus :=
        h.congr (h.host (.publish event) hidle) fun _ => rfl
      obtain ⟨hfirst, hordered'⟩ := ihdispatch _ hordered hhost
      rw [List.append_cons, ← List.append_assoc]
      exact ihdeeds _ ⟨hordered'.list, hordered'.walked⟩ (h.congr hfirst fun _ => rfl)
    | some served => trivial
  | unheard hlist => exact fun before hordered hidle => ⟨h.unheard hlist hidle, hordered⟩
  | @dispatch event live first between second live' hlist hwalk hdrain ihwalk ihdrain =>
    intro before hordered hidle
    obtain ⟨hfirst, hordered'⟩ := ihwalk _ (.begin hordered event.kind) (h.taken hidle)
    rw [List.append_cons, ← List.append_assoc]
    exact ihdrain _ hordered' hfirst
  | dry hqueue => exact fun before hordered hidle =>
      ⟨(List.append_nil before).symm ▸ hidle, hordered⟩
  | drain hqueue hdispatch hdrain ihdispatch ihdrain =>
    intro before hordered hidle
    obtain ⟨hfirst, hordered'⟩ :=
      ihdispatch before ⟨hordered.list, hordered.walked⟩ (h.congr hidle fun _ => rfl)
    rw [← List.append_assoc]
    exact ihdrain _ hordered' hfirst
  | @finished place places event stopped live hend =>
    exact fun before hreaches hwalking =>
      ⟨h.finished hreaches hwalking, live.ordered_endWalk hreaches.ordered places⟩
  | @skip place places event live subscription marks live' hat hlost hwalk ih =>
    intro before hreaches hwalking
    rw [List.append_cons]
    exact ih _ ((hreaches.step hat true).take none) (h.skipped hreaches hat hwalking)
  | @serve place places event live subscription conduct first after second live' hat hlost
      hconduct hcall
      hwalk _ ihwalk =>
    intro before hreaches hwalking
    have hwalk' := Bus.isSome_walk_of_walkKind? hreaches.kind
    obtain ⟨rfl, hafter, -⟩ := hcall.called hwalk' event
    -- During the call, the walk counts as having left the place already.
    have hbegun := (hreaches.step hat subscription.oneShot).take subscription.listener
    obtain ⟨hserving, hreaches'⟩ := h.deeds conduct.deeds hbegun (h.begun hreaches hat hwalking)
    rw [← hafter] at hserving hreaches'
    have hrest := ihwalk _ hreaches' (h.ended conduct.consumed conduct.failed hserving)
    simpa only [List.append_assoc, List.cons_append, List.nil_append] using hrest

/-- What a host does from a new bus on keeps a watch. -/
theorem Kept.holds (h : watch.Kept ρ) {rest : ρ} {deeds : List (Deed κ ι α)}
    (hnew : watch.idle [] {})
    (hruns : Live.Runs manners report (.perform none deeds) ⟨{}, rest⟩ marks live') :
    watch.idle marks live'.bus := by
  have hordered : Bus.Ordered ({} : Bus κ ι α) :=
    ⟨fun kind => List.Pairwise.nil, List.Pairwise.nil⟩
  exact (h.run hruns [] hordered hnew).1

end Watch

end Colloquy
