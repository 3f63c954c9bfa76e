import Colloquy.Proofs.Bus.Watches

/-!
# Copies of a subscription

Subscriptions that do not differ in anything are copies of each other: which one of them is called
cannot be told. This module counts the copies in the lists of a bus and on both sides of the place
that a walk has come to (`Bus.behind`, `Bus.ahead`). A listener that does not subscribe to the
walked kind ahead of itself (`Mark.StaysBehind`) leaves everything up to its own place as it is,
and what it subscribes meanwhile is still ahead (`take_walked_apply`, `ahead_apply`).

A `Budget` says of marks that something which may happen to a subscription does not happen more
often than it has been paid for, at no time.
-/

namespace Colloquy

open Bus (Deed Mark)

variable {κ ι α ρ : Type}

/-! ## Budgets -/

theorem countP_concat {β : Type} (p : β → Bool) (items : List β) (item : β) :
    (items ++ [item]).countP p = items.countP p + (p item).toNat := by
  rw [List.countP_append, List.countP_singleton]
  cases p item <;> rfl

/-- As long as all marks are fair, those that spend are never more than those that earn and a
credit, and after all of them there is enough for what is still due. -/
structure Budget (Fair : Mark κ ι α → Prop) (spends earns : Mark κ ι α → Bool) (credit : Nat)
    (marks : List (Mark κ ι α)) (due : Nat) : Prop where
  always : ∀ first, first <+: marks → (∀ mark ∈ first, Fair mark) →
    first.countP spends ≤ credit + first.countP earns
  due : (∀ mark ∈ marks, Fair mark) → marks.countP spends + due ≤ credit + marks.countP earns

namespace Budget

variable {Fair : Mark κ ι α → Prop} {spends earns : Mark κ ι α → Bool} {credit due due' : Nat}
  {marks : List (Mark κ ι α)}

theorem nil (hdue : due ≤ credit) : Budget Fair spends earns credit [] due where
  always first hfirst _ := by rw [List.prefix_nil.1 hfirst]; exact Nat.zero_le _
  due _ := by rw [List.countP_nil, List.countP_nil]; omega

theorem concat (h : Budget Fair spends earns credit marks due) {mark : Mark κ ι α}
    (hmark : (∀ mark ∈ marks, Fair mark) → Fair mark →
      (spends mark).toNat + due' ≤ due + (earns mark).toNat) :
    Budget Fair spends earns credit (marks ++ [mark]) due' := by
  have hdue (hfair : ∀ other ∈ marks ++ [mark], Fair other) :
      (marks ++ [mark]).countP spends + due' ≤ credit + (marks ++ [mark]).countP earns := by
    obtain ⟨hmarks, hlast⟩ := List.forall_mem_append.1 hfair
    have hbefore := h.due hmarks
    have hstep := hmark hmarks (hlast mark List.mem_cons_self)
    rw [countP_concat, countP_concat]
    omega
  refine ⟨fun first hfirst hfair => ?_, hdue⟩
  rcases List.prefix_concat_iff.1 hfirst with rfl | hfirst
  · have hall := hdue hfair
    omega
  · exact h.always first hfirst hfair

/-- A mark that does not spend. -/
theorem free (h : Budget Fair spends earns credit marks due) {mark : Mark κ ι α}
    (hspends : spends mark = false)
    (hdue : (∀ mark ∈ marks, Fair mark) → Fair mark → due' ≤ due + (earns mark).toNat) :
    Budget Fair spends earns credit (marks ++ [mark]) due' := by
  refine h.concat fun hmarks hmark => ?_
  rw [hspends, Bool.toNat_false, Nat.zero_add]
  exact hdue hmarks hmark

end Budget

namespace Bus

/-- A deed subscribes a subscription to a kind. -/
def Deed.makes [DecidableEq κ] [DecidableEq ι] (kind : κ) (subscription : Subscription ι) :
    Deed κ ι α → Bool
  | .subscribe other made => other = kind && made = subscription
  | _ => false

/-- A deed subscribes a subscription to a kind. -/
def Mark.makes [DecidableEq κ] [DecidableEq ι] (kind : κ) (subscription : Subscription ι) :
    Mark κ ι α → Bool
  | .did _ deed _ => deed.makes kind subscription
  | _ => false

/-- A deed does not end a subscription to a kind. -/
def Deed.Spares (kind : κ) (subscription : Subscription ι) : Deed κ ι α → Prop
  | .unsubscribe other listener => other = kind → subscription.listener ≠ listener
  | .clear other => other ≠ kind
  | .clearAll => False
  | _ => True

/-- A listener does not subscribe to the walked kind ahead of itself. -/
def Mark.StaysBehind (kind : κ) : Mark κ ι α → Prop
  | .did (some served) (.subscribe other subscription) bus =>
    other = kind → bus.Walks kind → subscription.priority ≤ served.priority
  | _ => True

section Lists

variable [DecidableEq ι]

theorem count_enlist (subscription other : Subscription ι) (list : List (Subscription ι)) :
    (enlist subscription list).count other =
      list.count other + (decide (subscription = other)).toNat := by
  obtain ⟨first, second, rfl, henlist, -⟩ := exists_enlist subscription list
  rw [henlist, List.perm_middle.count_eq, List.count_cons]
  by_cases h : subscription = other <;> simp [h]

variable [DecidableEq κ] {kind : κ} {subscription : Subscription ι} {deed : Deed κ ι α}

theorem Deed.count_edit_le (kind : κ) (subscription : Subscription ι) (list : List (Subscription ι))
    (deed : Deed κ ι α) :
    (deed.edit kind list).count subscription ≤
      list.count subscription + (deed.makes kind subscription).toNat := by
  cases deed with
  | subscribe other made =>
    rw [edit, makes]
    split
    · next h => simp [count_enlist, h]
    · exact Nat.le_add_right _ _
  | unsubscribe other listener =>
    rw [edit]
    split
    · exact List.filter_sublist.count_le subscription
    · exact Nat.le_refl _
  | clear other =>
    rw [edit]
    split
    · exact Nat.zero_le _
    · exact Nat.le_refl _
  | clearAll => exact Nat.zero_le _
  | publish event => exact Nat.le_refl _
  | drop listener => exact Nat.le_refl _

theorem Deed.Spares.count_edit (h : deed.Spares kind subscription) (list : List (Subscription ι)) :
    (deed.edit kind list).count subscription =
      list.count subscription + (deed.makes kind subscription).toNat := by
  cases deed with
  | subscribe other made =>
    rw [edit, makes]
    split
    · next hkind => simp [count_enlist, hkind]
    · next hkind => simp [hkind]
  | unsubscribe other listener =>
    rw [edit]
    split
    · next hkind => exact List.count_filter (by simpa using h hkind)
    · rfl
  | clear other => rw [edit, if_neg h]; rfl
  | clearAll => cases h
  | publish event => rfl
  | drop listener => rfl

end Lists

/-! ## On both sides of a walk -/

variable [DecidableEq κ] [DecidableEq ι] {bus : Bus κ ι α} {kind : κ} {place : Nat}
    {places : List Nat}
  {subscription served : Subscription ι} {deed : Deed κ ι α}

/-- The copies of a subscription in the walked list before a place, without those at some places. -/
def behind (bus : Bus κ ι α) (place : Nat) (places : List Nat) (subscription : Subscription ι) :
    Nat :=
  (Live.removeAt (bus.walked.take place) places).count subscription

/-- The copies of a subscription in the walked list from a place on. -/
def ahead (bus : Bus κ ι α) (place : Nat) (subscription : Subscription ι) : Nat :=
  (bus.walked.drop place).count subscription

theorem ahead_of_getElem? (hat : bus.walked[place]? = some served) (subscription : Subscription ι) :
    bus.ahead place subscription =
      bus.ahead (place + 1) subscription + (decide (served = subscription)).toNat := by
  obtain ⟨hplace, hget⟩ := List.getElem?_eq_some_iff.1 hat
  rw [ahead, ahead, List.drop_eq_getElem_cons hplace, hget, List.count_cons]
  by_cases h : served = subscription <;> simp [h]

theorem count_take_of_getElem? (hat : bus.walked[place]? = some served)
    (subscription : Subscription ι) :
    (bus.walked.take (place + 1)).count subscription =
      (bus.walked.take place).count subscription + (decide (served = subscription)).toNat := by
  rw [List.take_add_one, hat, List.count_append]
  by_cases h : served = subscription <;> simp [h]

/-- One step of a walk adds the subscription at its place to those behind, unless that place is
noted. -/
theorem behind_step (hat : bus.walked[place]? = some served) (hremovable : Removable place places)
    (ends : Bool) (subscription : Subscription ι) :
    bus.behind (place + 1) (if ends then place :: places else places) subscription =
      bus.behind place places subscription + (! ends && decide (served = subscription)).toNat := by
  cases ends with
  | true =>
    have hplace := (List.getElem?_eq_some_iff.1 hat).1
    exact congrArg _ (Live.removeAt_take_cons hplace places)
  | false =>
    have htake := Live.removeAt_take_succ hat hremovable
    rw [behind, if_neg Bool.false_ne_true, htake, List.count_append, List.count_singleton]
    by_cases h : served = subscription <;> simp [behind, h]

/-- At the end of a walk, the copies that are not behind at a noted place are left. -/
theorem count_endWalk {live : Live κ ι α ρ} (h : live.bus.Reaches kind place places)
    (hwalks : live.bus.Walks kind) (subscription : Subscription ι) :
    ((live.endWalk places).bus.list kind).count subscription =
      live.bus.behind place places subscription + live.bus.ahead place subscription := by
  have hremovable : Removable (live.bus.walked.take place).length places := by
    rw [List.length_take_of_le h.place_le]
    exact h.removable
  have hsplit := Live.removeAt_append hremovable (live.bus.walked.drop place)
  rw [List.take_append_drop] at hsplit
  rw [Live.list_endWalk_of_walks hwalks, hsplit, List.count_append]
  rfl

/-- What a listener does that stays behind itself leaves the walked list as it is up to its own
place. -/
theorem take_walked_apply (h : bus.Reaches kind (place + 1) places)
    (hat : bus.walked[place]? = some served)
    (hbehind : (Mark.did (some served) deed bus).StaysBehind kind) :
    (bus.apply deed).walked.take (place + 1) = bus.walked.take (place + 1) := by
  obtain ⟨other, made, rfl, hwalks, hwalked⟩ | ⟨-, hwalked⟩ := walked_apply_cases bus deed
  · have hother : other = kind := Option.some.inj (hwalks.walkKind?.symm.trans h.kind)
    subst hother
    rw [hwalked]
    exact (split_enlist h.ordered.walked hat (hbehind rfl hwalks)).1
  · rw [hwalked]

/-- What it subscribes to the walked kind is ahead. -/
theorem ahead_apply (h : bus.Reaches kind (place + 1) places)
    (hat : bus.walked[place]? = some served)
    (hbehind : (Mark.did (some served) deed bus).StaysBehind kind) (subscription : Subscription ι) :
    (bus.apply deed).ahead (place + 1) subscription = bus.ahead (place + 1) subscription +
      if bus.Walks kind then (deed.makes kind subscription).toNat else 0 := by
  obtain ⟨other, made, rfl, hwalks, hwalked⟩ | ⟨hapart, hwalked⟩ := walked_apply_cases bus deed
  · have hother : other = kind := Option.some.inj (hwalks.walkKind?.symm.trans h.kind)
    subst hother
    have hperm := (split_enlist h.ordered.walked hat (hbehind rfl hwalks)).2
    rw [ahead, hwalked, hperm.count_eq, List.count_cons, if_pos hwalks, Deed.makes, ahead]
    by_cases hmade : made = subscription <;> simp [hmade]
  · have hmakes : (if bus.Walks kind then (deed.makes kind subscription).toNat else 0) = 0 := by
      split
      · next hwalks =>
        cases deed with
        | subscribe other made =>
          have hother : other ≠ kind := fun hkind => hapart other made rfl (hkind ▸ hwalks)
          simp [Deed.makes, hother]
        | _ => rfl
      · rfl
    rw [hmakes, ahead, hwalked]
    rfl

/-- The place of the subscription that is being served is behind the walk. -/
theorem getElem?_walked_apply (h : bus.Reaches kind (place + 1) places)
    (hat : bus.walked[place]? = some served)
    (hbehind : (Mark.did (some served) deed bus).StaysBehind kind) :
    (bus.apply deed).walked[place]? = some served := by
  rw [← hat, ← List.getElem?_take_of_lt (Nat.lt_succ_self place), take_walked_apply h hat hbehind,
    List.getElem?_take_of_lt (Nat.lt_succ_self place)]

end Bus

end Colloquy
