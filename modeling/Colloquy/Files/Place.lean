/-!
# Places

A place in a file tree is given by the names that lead down to it from the top. Going on to a name
inside and going back up are single steps, so the names are kept from the innermost outwards.
Places of different depth are told apart by their depth, without looking at the names.
-/

namespace Colloquy.Files

/-- A place in a file tree. -/
structure Place where
  /-- How many names lead to the place. -/
  depth : Nat
  /-- The names that lead to the place, the innermost first. -/
  inward : List String
  /-- The depth is that of the names. -/
  depth_eq : depth = inward.length
  deriving DecidableEq, Repr

namespace Place

/-- The place above all others. -/
def top : Place :=
  ⟨0, [], rfl⟩

/-- The place under a name inside. -/
def child (place : Place) (name : String) : Place :=
  ⟨place.depth + 1, name :: place.inward, by simp [place.depth_eq]⟩

/-- The place above; the top is above itself. -/
def parent (place : Place) : Place :=
  ⟨place.depth - 1, place.inward.tail, by simp [place.depth_eq]⟩

/-- The last name on the way, if the place is not the top. -/
def name? (place : Place) : Option String :=
  place.inward.head?

/-- The names that lead to the place, from the top. -/
def names (place : Place) : List String :=
  place.inward.reverse

/-- The place that names lead to from the top. -/
def ofNames (names : List String) : Place :=
  names.foldl child top

/-- Whether a place lies on the way to another one, or is that one. -/
def isAbove (place other : Place) : Bool :=
  place.depth ≤ other.depth && other.inward.drop (other.depth - place.depth) == place.inward

@[ext] theorem ext {p q : Place} (h : p.inward = q.inward) : p = q := by
  obtain ⟨d, inward, hd⟩ := p
  obtain ⟨e, inward', he⟩ := q
  cases h
  cases hd.trans he.symm
  rfl

@[simp] theorem parent_child (place : Place) (name : String) : (place.child name).parent = place :=
  ext rfl

@[simp] theorem name?_child (place : Place) (name : String) :
    (place.child name).name? = some name :=
  rfl

@[simp] theorem names_child (place : Place) (name : String) :
    (place.child name).names = place.names ++ [name] := by
  simp [names, child]

theorem names_foldl_child (place : Place) (names : List String) :
    (names.foldl child place).names = place.names ++ names := by
  induction names generalizing place with
  | nil => simp
  | cons name names ih => simp [ih]

/-- A place is found by its names. -/
@[simp] theorem names_ofNames (names : List String) : (ofNames names).names = names :=
  (names_foldl_child top names).trans (by simp [Place.names, top])

/-- A place lies on the way to another exactly if its names begin those of the other. -/
theorem isAbove_iff (place other : Place) : place.isAbove other ↔ place.names <+: other.names := by
  simp only [isAbove, names, Bool.and_eq_true, decide_eq_true_eq, beq_iff_eq, List.reverse_prefix,
    place.depth_eq, other.depth_eq]
  constructor
  · rintro ⟨_, h⟩
    exact h ▸ List.drop_suffix ..
  · intro h
    exact ⟨h.length_le, (List.suffix_iff_eq_drop.mp h).symm⟩

end Place

end Colloquy.Files
