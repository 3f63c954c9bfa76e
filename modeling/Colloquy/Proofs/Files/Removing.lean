import Colloquy.Proofs.Files.Directories

/-!
# Trees without some of their files

`Tree.Without` says that nothing stands at some places of a tree any more, and that all other
places are as they were. A directory lists the other names then (`Without.list_eq`), and what
stands under them is read as before (`Without.read_child`), as long as the directory is still
found.
-/

namespace Colloquy.Files

theorem Place.isAbove_foldl_child (place : Place) (names : List String) :
    place.isAbove (names.foldl Place.child place) = true := by
  rw [Place.isAbove_iff, Place.names_foldl_child]
  exact List.prefix_append ..

theorem Place.depth_le_of_isAbove {place other : Place} (h : place.isAbove other = true) :
    place.depth ≤ other.depth := by
  have hlength := ((Place.isAbove_iff place other).1 h).length_le
  rwa [Place.names, Place.names, List.length_reverse, List.length_reverse, ← place.depth_eq,
    ← other.depth_eq] at hlength

theorem Place.isAbove_self (place : Place) : place.isAbove place = true :=
  (Place.isAbove_iff place place).2 List.prefix_rfl

/-- Of two places of the same depth, one is above the other only if they are the same. -/
theorem Place.eq_of_isAbove {place other : Place} (h : place.isAbove other = true)
    (hdepth : place.depth = other.depth) : place = other := by
  have hnames := Place.isAbove_iff place other |>.1 h
  have hlength : place.names.length = other.names.length := by
    rw [Place.names, Place.names, List.length_reverse, List.length_reverse, ← place.depth_eq,
      ← other.depth_eq, hdepth]
  exact Place.ext (List.reverse_injective (hnames.eq_of_length hlength))

theorem Path.parent_child (path : Path) (name : String) : (path.child name).parent = path := by
  simp [Path.parent, Path.child]

namespace Tree

variable {tree tree' : Tree} {place target : Place} {path : Path} {name suffix : String}
    {names : List String}

/-- The place that a path names in the directory that it lies in, whether or not anything stands
there. -/
def StandsAt (tree : Tree) (path : Path) (place : Place) : Prop :=
  ∃ directory, tree.Leads path.parent directory ∧ place = directory.child path.name

/-- A path leads to one directory only. -/
theorem Leads.unique (h : tree.Leads path place) (h' : tree.Leads path target) : place = target :=
  Except.ok.inj (h.follow.symm.trans h'.follow)

theorem Leads.standsAt_child_iff (h : tree.Leads path place) :
    tree.StandsAt (path.child name) target ↔ target = place.child name := by
  unfold StandsAt
  rw [Path.parent_child, Path.name_child]
  constructor
  · rintro ⟨directory, hdirectory, rfl⟩
    rw [h.unique hdirectory]
  · rintro rfl
    exact ⟨place, h, rfl⟩

theorem Leads.exists_parent (h : tree.Leads (path.child name) target) :
    ∃ place, tree.Leads path place :=
  exists_leads_of_follow h.follow

/-! ## What stays -/

/-- Another tree is a tree without what stands at some places. -/
structure Without (gone : Place → Prop) (tree tree' : Tree) : Prop where
  home : tree'.home = tree.home
  kept : ∀ place, ¬ gone place → tree'.items.get? place = tree.items.get? place
  removed : ∀ place, gone place → tree'.items.get? place = none

/-- Whatever stands at some places can be taken away. -/
theorem exists_without (gone : Place → Prop) (tree : Tree) : ∃ tree', Without gone tree tree' := by
  classical
  have hnodup : (Entries.keys (tree.items.entries.filter fun entry => ¬ gone entry.1)).Nodup :=
    List.Nodup.sublist (List.filter_sublist.map _) tree.items.nodup
  refine ⟨{ tree with items := ⟨_, hnodup⟩ }, rfl, fun place hkept => ?_, fun place hgone => ?_⟩
  · show Entries.find? _ place = Entries.find? _ place
    unfold Entries.find?
    rw [List.find?_filter]
    congr 2
    funext entry
    by_cases hplace : entry.1 = place <;> simp [hplace, hkept]
  · show Entries.find? _ place = none
    unfold Entries.find?
    rw [List.find?_filter, List.find?_eq_none.2, Option.map_none]
    intro entry _
    by_cases hplace : entry.1 = place <;> simp [hplace, hgone]

namespace Without

variable {gone : Place → Prop}

theorem item?_eq (h : Without gone tree tree') (hkept : ¬ gone place) :
    tree'.item? place = tree.item? place := by
  rw [item?, item?, h.home, h.kept place hkept]

/-- Putting back what has been removed lets the tree grow. -/
theorem grown (h : Without gone tree tree') : Grown gone tree' tree where
  home := h.home.symm
  items place hkept := (h.kept place hkept).symm
  directories place hdirectory := by
    by_cases hgone : gone place
    · rw [item?, h.removed place hgone, h.home] at hdirectory
      rw [item?]
      split at hdirectory
      · next habove => exact if_pos habove
      · cases hdirectory
    · rwa [← h.item?_eq hgone]

/-- Without double dots, what is found is still found if none of the directories above it has
gone. -/
theorem follow_eq_ok (h : Without gone tree tree') {start : Place} (hnames : ".." ∉ names)
    (hfollow : tree.follow start names = .ok place)
    (hkept : ∀ above, above.isAbove place = true → ¬ gone above) :
    tree'.follow start names = .ok place := by
  induction names generalizing start with
  | nil => exact hfollow
  | cons name names ih =>
    have habove : start.isAbove place = true := by
      rw [follow_eq_foldl hnames hfollow]
      exact Place.isAbove_foldl_child ..
    rw [follow] at hfollow ⊢
    rw [h.item?_eq (hkept start habove)]
    split at hfollow
    · cases hfollow
    · cases hfollow
    · split at hfollow
      · cases hfollow
      · next hlength =>
        rw [if_neg hlength]
        exact ih (List.not_mem_of_not_mem_cons hnames) hfollow

/-- Without double dots, a path still leads to a directory if neither that nor one above it has
gone. -/
theorem leads (h : Without gone tree tree') (hnames : ".." ∉ path.names)
    (hleads : tree.Leads path place)
    (hkept : ∀ above, above.isAbove place = true → ¬ gone above) : tree'.Leads path place where
  follow := by
    have horigin : tree'.origin path = tree.origin path := by
      rw [origin, origin, h.home]
    rw [horigin]
    exact h.follow_eq_ok hnames hleads.follow hkept
  directory := by
    rw [h.item?_eq (hkept place place.isAbove_self)]
    exact hleads.directory

/-- A directory in one that is still found is there if it was there and has not gone. -/
theorem leads_child_iff (h : Without gone tree tree') (hleads : tree'.Leads path place)
    (hname : name ≠ "..") (hkept : ¬ gone (place.child name)) :
    tree'.Leads (path.child name) target ↔ tree.Leads (path.child name) target :=
  (h.grown.leads_child_iff hleads hname hkept).symm

theorem read_child (h : Without gone tree tree') (hleads : tree'.Leads path place)
    (hname : name ≠ "..") (hkept : ¬ gone (place.child name)) :
    tree'.read (path.child name) = tree.read (path.child name) :=
  (h.grown.read_child hleads hname hkept).symm

/-- Something is in a directory that is still found exactly if it was there before and has not
gone. -/
theorem exists?_child_eq (h : Without gone tree tree') (hname : name ≠ "..")
    (hleads : tree.Leads path place) (hleads' : tree'.Leads path place)
    (hkept : ¬ gone (place.child name)) :
    tree'.exists? (path.child name) = tree.exists? (path.child name) := by
  refine exists?_congr (locate_child hleads hleads') fun target hlocate => ?_
  obtain rfl := hleads.eq_child hname hlocate
  exact h.item?_eq hkept

/-- If nothing has gone, names lead where they led. -/
theorem follow_eq (h : Without gone tree tree') (hkept : ∀ place, ¬ gone place) (start : Place)
    (names : List String) : tree'.follow start names = tree.follow start names := by
  induction names generalizing start with
  | nil => rfl
  | cons name names ih =>
    rw [follow, follow, h.item?_eq (hkept start)]
    cases tree.item? start with
    | none => rfl
    | some item =>
      cases item with
      | file bytes => rfl
      | directory =>
        dsimp only
        rw [ih]

theorem exists?_eq (h : Without gone tree tree') (hkept : ∀ place, ¬ gone place) (path : Path) :
    tree'.exists? path = tree.exists? path := by
  refine exists?_congr ?_ fun target _ => h.item?_eq (hkept target)
  rw [locate, locate, h.follow_eq hkept, h.home]

theorem namesIn_eq (h : Without gone tree tree') {kept : String → Bool}
    (hkept : ∀ name ∈ tree.namesIn place suffix, kept name = true ↔ ¬ gone (place.child name)) :
    tree'.namesIn place suffix = (tree.namesIn place suffix).filter kept := by
  refine (sortedLT_namesIn tree' place suffix).eq_of_mem_iff
    ((sortedLT_namesIn tree place suffix).pairwise.filter _).sortedLT fun name => ?_
  rw [List.mem_filter]
  constructor
  · intro hname
    obtain ⟨hkey, hsuffix⟩ := mem_namesIn.1 hname
    have hthere : ¬ gone (place.child name) := by
      intro hgone
      obtain ⟨item, hitem⟩ := Ledger.mem_keys_iff.1 hkey
      rw [h.removed _ hgone] at hitem
      cases hitem
    have hbefore : name ∈ tree.namesIn place suffix :=
      mem_namesIn.2 ⟨(h.grown.mem_keys_iff hthere).2 hkey, hsuffix⟩
    exact ⟨hbefore, (hkept name hbefore).2 hthere⟩
  · rintro ⟨hbefore, hname⟩
    obtain ⟨hkey, hsuffix⟩ := mem_namesIn.1 hbefore
    exact mem_namesIn.2 ⟨(h.grown.mem_keys_iff ((hkept name hbefore).1 hname)).1 hkey, hsuffix⟩

/-- A directory that is still found lists what has not gone. -/
theorem list_eq (h : Without gone tree tree') {kept : Path → Bool}
    (hleads : ∀ place, tree.Leads path place → tree'.Leads path place)
    (hkept : ∀ listed ∈ tree.list path suffix, ∀ target, tree.StandsAt listed target →
      (kept listed = true ↔ ¬ gone target)) :
    tree'.list path suffix = (tree.list path suffix).filter kept := by
  by_cases hpath : path.Askable ∧ ∃ place, tree.Leads path place
  · obtain ⟨haskable, place, hplace⟩ := hpath
    have hlist : tree.list path suffix = (tree.namesIn place suffix).map path.child :=
      list_of_leads haskable hplace
    rw [hlist] at hkept ⊢
    have hnames : ∀ name ∈ tree.namesIn place suffix,
        (kept ∘ path.child) name = true ↔ ¬ gone (place.child name) :=
      fun name hname => hkept _ (List.mem_map_of_mem hname) _ (hplace.standsAt_child_iff.2 rfl)
    rw [list_of_leads haskable (hleads place hplace), h.namesIn_eq hnames, List.filter_map]
  · have hnowhere : path.Askable → ∀ place, ¬ tree.Leads path place :=
      fun haskable place hplace => hpath ⟨haskable, place, hplace⟩
    rw [list_eq_nil hnowhere, list_eq_nil fun haskable place hplace =>
      hnowhere haskable place (h.grown.leads hplace)]
    rfl

end Without

end Tree

end Colloquy.Files
