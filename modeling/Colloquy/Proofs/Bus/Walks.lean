import Colloquy.Proofs.Bus.Deeds

/-!
# Walks

The dispatcher walks the list of a kind and, when the walk is over, removes the subscriptions at
the places that it has noted. `Removable` says that every one of them is there when its turn
comes; only the length of the list counts for that. `Live.list_endWalk` says what is left in the
lists.

`Bus.Ordered` says that every list is in order of priority, the walked one too. Deeds keep it, and
so do the steps of a walk.
-/

namespace Colloquy

/-- Items at some places of a list of some length can be removed one after the other: every place
is there when its turn comes. -/
def Removable : Nat → List Nat → Prop
  | _, [] => True
  | length, place :: places => place < length ∧ Removable (length - 1) places

theorem Removable.mono {length length' : Nat} {places : List Nat} (h : Removable length places)
    (hle : length ≤ length') : Removable length' places := by
  induction places generalizing length length' with
  | nil => trivial
  | cons place places ih => exact ⟨Nat.lt_of_lt_of_le h.1 hle, ih h.2 (Nat.sub_le_sub_right hle 1)⟩

/-- The last place of a list and some earlier ones. -/
theorem Removable.cons {place : Nat} {places : List Nat} (h : Removable place places) :
    Removable (place + 1) (place :: places) :=
  ⟨Nat.lt_succ_self place, h⟩

/-- The places that a walk has noted, when it may have noted the one that it has just left. -/
theorem Removable.note {place : Nat} {places : List Nat} (h : Removable place places)
    (ends : Bool) :
    Removable (place + 1) (if ends then place :: places else places) := by
  split
  · exact h.cons
  · exact h.mono (Nat.le_succ place)

namespace Live

section Removal

variable {β : Type}

/-- What comes behind all the places stays. -/
theorem removeAt_append {first : List β} {places : List Nat} (h : Removable first.length places)
    (second : List β) : removeAt (first ++ second) places = removeAt first places ++ second := by
  induction places generalizing first with
  | nil => rfl
  | cons place places ih =>
    have hlength : (first.eraseIdx place).length = first.length - 1 :=
      List.length_eraseIdx_of_lt h.1
    have herase := List.eraseIdx_append_of_lt_length h.1 second
    rw [removeAt, List.foldl_cons, herase]
    exact ih (by rw [hlength]; exact h.2)

/-- What is left of the items before a place, when the item there goes. -/
theorem removeAt_take_cons {items : List β} {place : Nat} (hplace : place < items.length)
    (places : List Nat) :
    removeAt (items.take (place + 1)) (place :: places) = removeAt (items.take place) places := by
  have hlength : (items.take place).length = place := List.length_take_of_le (Nat.le_of_lt hplace)
  have herase : (items.take (place + 1)).eraseIdx place = items.take place := by
    rw [List.take_succ_eq_append_getElem hplace, List.eraseIdx_append_of_length_le (by omega),
      hlength, Nat.sub_self]
    simp
  rw [removeAt, List.foldl_cons, herase]
  rfl

/-- What is left of the items before a place, when the item there stays. -/
theorem removeAt_take_succ {items : List β} {item : β} {place : Nat}
    (hat : items[place]? = some item) {places : List Nat} (h : Removable place places) :
    removeAt (items.take (place + 1)) places = removeAt (items.take place) places ++ [item] := by
  have hplace := (List.getElem?_eq_some_iff.1 hat).1
  have hlength : (items.take place).length = place := List.length_take_of_le (Nat.le_of_lt hplace)
  rw [List.take_add_one, hat]
  exact removeAt_append (by rw [hlength]; exact h) [item]

end Removal

variable {κ ι α ρ : Type} {live : Live κ ι α ρ}

theorem isSome_walk_take (h : live.bus.walk.isSome) (listener? : Option ι) :
    (live.take listener?).bus.walk.isSome := by
  rw [take, mapBus, Option.isSome_map, h]

theorem walks_take_iff (live : Live κ ι α ρ) (listener? : Option ι) (kind : κ) :
    (live.take listener?).bus.Walks kind ↔ live.bus.Walks kind := by
  constructor
  · rintro ⟨walk', hwalk, hkind, hdetached⟩
    obtain ⟨walk, hwalk', rfl⟩ := Option.map_eq_some_iff.1 hwalk
    exact ⟨walk, hwalk', hkind, hdetached⟩
  · rintro ⟨walk, hwalk, hkind, hdetached⟩
    exact ⟨_, congrArg (Option.map _) hwalk, hkind, hdetached⟩

theorem walkKind?_take (live : Live κ ι α ρ) (listener? : Option ι) :
    (live.take listener?).bus.walkKind? = live.bus.walkKind? :=
  Option.map_map ..

theorem walks_beginWalk (live : Live κ ι α ρ) (kind : κ) : (live.beginWalk kind).bus.Walks kind :=
  ⟨_, rfl, rfl, rfl⟩

variable [DecidableEq κ]

theorem walked_take (live : Live κ ι α ρ) (listener? : Option ι) :
    (live.take listener?).bus.walked = live.bus.walked := by
  cases hwalk : live.bus.walk with
  | none => simp [Bus.walked, take, mapBus, hwalk]
  | some walk => simp [Bus.walked, take, mapBus, hwalk, Bus.list]

theorem walked_beginWalk (live : Live κ ι α ρ) (kind : κ) :
    (live.beginWalk kind).bus.walked = live.bus.list kind :=
  rfl

theorem walk_endWalk (live : Live κ ι α ρ) (places : List Nat) :
    (live.endWalk places).bus.walk = none := by
  simp only [endWalk, mapBus]
  split
  · assumption
  · rfl

theorem queue_endWalk (live : Live κ ι α ρ) (places : List Nat) :
    (live.endWalk places).bus.queue = live.bus.queue := by
  simp only [endWalk, mapBus]
  split <;> rfl

/-- When a walk is over, the walked list goes back to its place, unless it is kept apart. -/
theorem list_endWalk_of_walks {kind : κ} (h : live.bus.Walks kind) (places : List Nat) :
    (live.endWalk places).bus.list kind = removeAt live.bus.walked places := by
  obtain ⟨walk, hwalk, rfl, hdetached⟩ := h
  simp only [endWalk, mapBus, hwalk, hdetached, Option.isNone_none, if_true, Bus.list,
    Ledger.get?_insert_self]
  rfl

theorem list_endWalk_of_not_walks {kind : κ} (h : ¬ live.bus.Walks kind) (places : List Nat) :
    (live.endWalk places).bus.list kind = live.bus.list kind := by
  simp only [endWalk, mapBus]
  split
  · rfl
  · next walk hwalk =>
    split
    · next hdetached =>
      have hkind : kind ≠ walk.kind := by
        rintro rfl
        exact h ⟨walk, hwalk, rfl, Option.isNone_iff_eq_none.1 hdetached⟩
      rw [Bus.list, Ledger.get?_insert_of_ne _ hkind, Bus.list]
    · rfl

end Live

/-! ## Order of priority -/

namespace Bus

variable {κ ι α : Type} [DecidableEq κ]

/-- Every list is in order of priority. -/
structure Ordered (bus : Bus κ ι α) : Prop where
  list : ∀ kind, Descending (bus.list kind)
  walked : Descending bus.walked

theorem Descending.edit [DecidableEq ι] {list : List (Subscription ι)}
    (h : Descending list) (kind : κ) (deed : Deed κ ι α) : Descending (deed.edit kind list) := by
  cases deed with
  | subscribe other subscription =>
    rw [Deed.edit]
    split
    · exact h.enlist subscription
    · exact h
  | unsubscribe other listener =>
    rw [Deed.edit]
    split
    · exact List.Pairwise.filter _ h
    · exact h
  | clear other =>
    rw [Deed.edit]
    split
    · exact List.Pairwise.nil
    · exact h
  | clearAll => exact List.Pairwise.nil
  | publish event => exact h
  | drop listener => exact h

theorem Ordered.apply [DecidableEq ι] {bus : Bus κ ι α} (h : bus.Ordered) (deed : Deed κ ι α) :
    (bus.apply deed).Ordered := by
  refine ⟨fun kind => ?_, ?_⟩
  · rw [list_apply]
    exact (h.list kind).edit kind deed
  · obtain ⟨kind, subscription, -, -, hwalked⟩ | ⟨-, hwalked⟩ := walked_apply_cases bus deed
    · rw [hwalked]
      exact h.walked.enlist subscription
    · rw [hwalked]
      exact h.walked

end Bus

namespace Live

variable {κ ι α ρ : Type} [DecidableEq κ] {live : Live κ ι α ρ}

theorem removeAt_sublist {β : Type} (items : List β) (places : List Nat) :
    (removeAt items places).Sublist items := by
  induction places generalizing items with
  | nil => exact .refl items
  | cons place places ih => exact (ih _).trans (List.eraseIdx_sublist items place)

theorem ordered_take (h : live.bus.Ordered) (listener? : Option ι) :
    (live.take listener?).bus.Ordered :=
  ⟨h.list, by rw [walked_take]; exact h.walked⟩

theorem ordered_beginWalk (h : live.bus.Ordered) (kind : κ) : (live.beginWalk kind).bus.Ordered :=
  ⟨h.list, h.list kind⟩

theorem ordered_endWalk (h : live.bus.Ordered) (places : List Nat) :
    (live.endWalk places).bus.Ordered := by
  refine ⟨fun kind => ?_, ?_⟩
  · by_cases hwalks : live.bus.Walks kind
    · rw [list_endWalk_of_walks hwalks]
      exact h.walked.sublist (removeAt_sublist _ places)
    · rw [list_endWalk_of_not_walks hwalks]
      exact h.list kind
  · rw [Bus.walked, walk_endWalk]
    exact List.Pairwise.nil

end Live

end Colloquy
