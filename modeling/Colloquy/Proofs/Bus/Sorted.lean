import Colloquy.Proofs.Bus.Moments

/-!
# Lists in order

A new subscription is put into its list by a scan that relies on the order of the list. Listeners
change lists while these are walked, by new subscriptions and by new lists in the place of old
ones, and a walk removes by place what it has noted, although something else may have come to
stand there. None of this disturbs the order. At every moment, the list of a kind is in order of
priority, and those of one priority stand as they were made (`Bus.Sorted`).

Only the order of the list and what has been made count for this, not where a walk has come to:
every deed keeps it (`Bus.Sorted.edit`), and so does whatever leaves something out
(`Bus.Sorted.sublist`). The main statement is `sorted_throughout`.
-/

namespace Colloquy

open Bus (Deed Mark)

namespace Bus

variable {κ ι α : Type} {made list list' : List (Subscription ι)} {kind : κ}
    {subscription : Subscription ι}

/-- A list is in order of priority, and among those of one priority in the order in which some
were made. -/
structure Sorted (made list : List (Subscription ι)) : Prop where
  descending : Descending list
  stable :
    ∀ priority, (list.filter (·.priority = priority)).Sublist (made.filter (·.priority = priority))

namespace Sorted

theorem nil (made : List (Subscription ι)) : Sorted made [] :=
  ⟨List.Pairwise.nil, fun _ => List.nil_sublist _⟩

theorem sublist (h : Sorted made list) (hsublist : list'.Sublist list) : Sorted made list' :=
  ⟨h.descending.sublist hsublist, fun priority => (hsublist.filter _).trans (h.stable priority)⟩

/-- Whatever is in the list has been made. -/
theorem mem_made (h : Sorted made list) (hmem : subscription ∈ list) : subscription ∈ made := by
  have hfilter : subscription ∈ list.filter (·.priority = subscription.priority) :=
    List.mem_filter.2 ⟨hmem, decide_eq_true rfl⟩
  exact (List.mem_filter.1 ((h.stable subscription.priority).subset hfilter)).1

/-- A new subscription comes behind all with its priority. -/
theorem enlist (h : Sorted made list) (subscription : Subscription ι) :
    Sorted (made ++ [subscription]) (enlist subscription list) := by
  refine ⟨h.descending.enlist subscription, fun priority => ?_⟩
  have hstable := h.stable priority
  obtain ⟨first, second, rfl, henlist, -, hsecond⟩ := h.descending.exists_enlist subscription
  rw [List.filter_append] at hstable
  rw [henlist, List.filter_append, List.filter_append]
  by_cases hpriority : subscription.priority = priority
  · have hlower : second.filter (·.priority = priority) = [] := by
      refine List.filter_eq_nil_iff.2 fun other hother => ?_
      have hbelow := hsecond other hother
      simp only [decide_eq_true_eq]
      omega
    rw [hlower, List.append_nil] at hstable
    rw [List.filter_cons_of_pos (by simpa using hpriority),
      List.filter_cons_of_pos (by simpa using hpriority), hlower, List.filter_nil]
    exact hstable.append (.refl _)
  · rw [List.filter_cons_of_neg (by simpa using hpriority),
      List.filter_cons_of_neg (by simpa using hpriority), List.filter_nil, List.append_nil]
    exact hstable

end Sorted

variable [DecidableEq κ]

/-- The subscription to a kind that a mark says to be made. -/
def Mark.made? (kind : κ) : Mark κ ι α → Option (Subscription ι)
  | .did _ (.subscribe other subscription) _ => if other = kind then some subscription else none
  | _ => none

/-- The subscriptions to a kind that are made, in order. -/
def madeIn (kind : κ) (marks : List (Mark κ ι α)) : List (Subscription ι) :=
  marks.filterMap (Mark.made? kind)

theorem madeIn_append (kind : κ) (marks more : List (Mark κ ι α)) :
    madeIn kind (marks ++ more) = madeIn kind marks ++ madeIn kind more :=
  List.filterMap_append

/-- Every deed keeps a list in order. -/
theorem Sorted.edit [DecidableEq ι] (h : Sorted made list) (kind : κ)
    (served : Option (Subscription ι)) (deed : Deed κ ι α) (bus : Bus κ ι α) :
    Sorted (made ++ madeIn kind [.did served deed bus]) (deed.edit kind list) := by
  cases deed with
  | subscribe other subscription =>
    by_cases hkind : other = kind
    · simpa [madeIn, Mark.made?, Deed.edit, hkind] using h.enlist subscription
    · simpa [madeIn, Mark.made?, Deed.edit, hkind] using h
  | unsubscribe other listener =>
    rw [Deed.edit]
    split
    · exact (List.append_nil made).symm ▸ h.sublist List.filter_sublist
    · exact (List.append_nil made).symm ▸ h
  | clear other =>
    rw [Deed.edit]
    split
    · exact .nil _
    · exact (List.append_nil made).symm ▸ h
  | clearAll => exact .nil _
  | publish event => exact (List.append_nil made).symm ▸ h
  | drop listener => exact (List.append_nil made).symm ▸ h

/-- All lists of a bus are in order. -/
def AllSorted (marks : List (Mark κ ι α)) (bus : Bus κ ι α) : Prop :=
  ∀ kind, Sorted (madeIn kind marks) (bus.list kind)

namespace AllSorted

variable {marks more : List (Mark κ ι α)} {bus bus' : Bus κ ι α}

/-- What leaves something out of the lists keeps them in order, if nothing is made. -/
theorem of_sublist (h : AllSorted marks bus) (hmore : ∀ kind, madeIn kind more = [])
    (hlist : ∀ kind, (bus'.list kind).Sublist (bus.list kind)) :
    AllSorted (marks ++ more) bus' := by
  intro kind
  rw [madeIn_append, hmore, List.append_nil]
  exact (h kind).sublist (hlist kind)

theorem apply [DecidableEq ι] (h : AllSorted marks bus) (served : Option (Subscription ι))
    (deed : Deed κ ι α) :
    AllSorted (marks ++ [.did served deed bus]) (bus.apply deed) := by
  intro kind
  rw [madeIn_append, list_apply]
  exact (h kind).edit kind served deed bus

end AllSorted

end Bus

namespace Live

variable {κ ι α ρ : Type} [DecidableEq κ]

/-- What a walk removes by place leaves the others in order, wherever the list stands. -/
theorem list_endWalk_sublist (live : Live κ ι α ρ) (places : List Nat) (kind : κ) :
    ((live.endWalk places).bus.list kind).Sublist (live.bus.list kind) := by
  by_cases hwalks : live.bus.Walks kind
  · rw [list_endWalk_of_walks hwalks, hwalks.walked]
    exact removeAt_sublist _ places
  · exact (list_endWalk_of_not_walks hwalks places).symm ▸ .refl _

end Live

/-- The watch over the order of all lists. -/
def Watch.ofOrder (κ ι α : Type) [DecidableEq κ] : Watch κ ι α where
  idle := Bus.AllSorted
  walking marks _ _ _ bus := Bus.AllSorted marks bus
  serving marks _ _ _ _ bus := Bus.AllSorted marks bus

theorem Watch.kept_ofOrder (κ ι α ρ : Type) [DecidableEq κ] [DecidableEq ι] :
    (Watch.ofOrder κ ι α).Kept ρ where
  congr h hlist kind := (hlist kind).symm ▸ h kind
  host deed h := h.apply none deed
  unheard _ h := h.of_sublist (fun _ => rfl) fun _ => .refl _
  taken h := h.of_sublist (fun _ => rfl) fun _ => .refl _
  skipped _ _ h := h.of_sublist (fun _ => rfl) fun _ => .refl _
  begun _ _ h := h.of_sublist (fun _ => rfl) fun _ => .refl _
  did deed _ h := h.apply _ deed
  ended _ _ h := h.of_sublist (fun _ => rfl) fun _ => .refl _
  finished _ h := h.of_sublist (fun _ => rfl) (Live.list_endWalk_sublist _ _)

theorem Watch.allSorted_of_at {κ ι α ρ : Type} [DecidableEq κ] {marks : List (Mark κ ι α)}
    {moment : Live.Moment κ ι α ρ} (h : (Watch.ofOrder κ ι α).At marks moment) :
    Bus.AllSorted marks moment.live.bus := by
  unfold At at h
  split at h <;> exact h.2

namespace Live

variable {κ ι α ρ : Type} [DecidableEq κ] [DecidableEq ι] {audience : Audience κ ι α ρ} {fuel : Nat}
  {manners : Manners κ ι α ρ}

/-- A host subscribes, unsubscribes, clears and publishes on a new bus, and so do listeners when
they are called. A course leads to what comes of this, or there are courses of any length if
nothing comes of it, and all courses go the same way, one perhaps further than the other. At every
moment of a course, be it within the call of a listener, the list of every kind is in order of
priority, those of one priority stand in it as they were made, and nothing stands in it that was
not. -/
theorem sorted_throughout (hfollows : audience.Follows fuel manners) (deeds : List (Deed κ ι α))
    (rest : ρ) :
    let start : Moment κ ι α ρ := ⟨⟨{}, rest⟩, .host, deeds⟩
    (∀ bound live', performAll audience bound deeds ⟨{}, rest⟩ = some live' →
      ∃ marks, Course manners audience.report start marks ⟨live', .host, []⟩) ∧
    (∀ bound, performAll audience bound deeds ⟨{}, rest⟩ = none →
      ∃ marks last, Course manners audience.report start marks last ∧ bound ≤ marks.length) ∧
    (∀ first last second other, Course manners audience.report start first last →
      Course manners audience.report start second other →
      (∃ more, second = first ++ more ∧ Course manners audience.report last more other) ∨
        ∃ more, first = second ++ more ∧ Course manners audience.report other more last) ∧
    ∀ marks moment, Course manners audience.report start marks moment → ∀ kind,
      Bus.Sorted (Bus.madeIn kind marks) (moment.live.bus.list kind) ∧
      ∀ subscription ∈ moment.live.bus.list kind, subscription ∈ Bus.madeIn kind marks := by
  intro start
  have hidle : (⟨{}, rest⟩ : Live κ ι α ρ).bus.Idle := ⟨rfl, rfl⟩
  have hattempt (bound : Nat) := attempt_performAll hfollows bound hidle deeds
  refine ⟨fun bound live' hdeeds => ?_, fun bound hdeeds => ?_, fun _ _ _ _ => Course.comparable,
    fun marks moment hcourse kind => ?_⟩
  · have hresult := hattempt bound
    rwa [hdeeds] at hresult
  · have hresult := hattempt bound
    rwa [hdeeds] at hresult
  · have hnew : Bus.Ordered ({} : Bus κ ι α) := ⟨fun kind => List.Pairwise.nil, List.Pairwise.nil⟩
    have hstart : (Watch.ofOrder κ ι α).At [] start := ⟨hnew, fun kind => .nil _⟩
    have hsorted := Watch.allSorted_of_at ((Watch.kept_ofOrder κ ι α ρ).course hcourse hstart) kind
    exact ⟨hsorted, fun subscription => hsorted.mem_made⟩

/-- The first listener is told of an event once, and then again because it has put another
subscription before its own; each time it makes two subscriptions and ends that of another
listener. -/
theorem sorted_throughout_insertion :
    let manners : Manners Unit Nat Nat Unit := fun listener event _ =>
      { deeds :=
          if listener = 0 then
            [.subscribe () { listener := 2, priority := 5 }, .subscribe () { listener := 3 },
              .unsubscribe () 1]
          else []
        rest := ()
        consumed := event.consumed }
    let audience := Audience.ofManners manners fun _ rest => rest
    let deeds : List (Deed Unit Nat Nat) :=
      [.subscribe () { listener := 0, oneShot := true }, .subscribe () { listener := 1 },
        .publish ⟨(), 0, false⟩]
    ∃ marks live', performAll audience 5 deeds ⟨{}, ()⟩ = some live' ∧
      Course manners audience.report ⟨⟨{}, ()⟩, .host, deeds⟩ marks ⟨live', .host, []⟩ ∧
      live'.bus.list () = [{ listener := 2, priority := 5 }, { listener := 2, priority := 5 },
        { listener := 0, oneShot := true }, { listener := 3 }, { listener := 3 }] ∧
      Bus.Sorted (Bus.madeIn () marks) (live'.bus.list ()) := by
  intro manners audience deeds
  obtain ⟨hends, -, -, hsorted⟩ :=
    sorted_throughout (Audience.follows_ofManners manners (fun _ rest => rest) 0) deeds ()
  have hdeeds : performAll audience 5 deeds ⟨{}, ()⟩ = some _ := rfl
  obtain ⟨marks, hcourse⟩ := hends 5 _ hdeeds
  exact ⟨marks, _, hdeeds, hcourse, rfl, (hsorted marks _ hcourse ()).1⟩

end Live

end Colloquy
