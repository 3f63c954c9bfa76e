import Colloquy.Proofs.Files.RoundTrip
import Mathlib.Data.List.Induction
import Mathlib.Data.List.Sort
import Mathlib.Data.String.Basic

/-!
# Directories and what is in them

`Tree.Leads` says that a path leads to a directory. What stands at the paths in a directory then
depends on nothing but this place (`locate_child`, `list_of_leads`).

`Tree.Grown` says that a tree has changed at some places only, and that no directory has gone.
Paths lead to the same directories then, and what is at other places is read as before.
-/

namespace Colloquy.Files

/-- A place is under a name in another one exactly if that one is above it and the name is its
last. -/
theorem Place.eq_child_iff {place key : Place} {name : String} :
    key = place.child name ↔ key.parent = place ∧ key.name? = some name := by
  constructor
  · rintro rfl
    exact ⟨Place.parent_child place name, Place.name?_child place name⟩
  · rintro ⟨rfl, hname⟩
    have hinward : key.inward = name :: key.inward.tail := (List.cons_head?_tail hname).symm
    exact Place.ext hinward

theorem Place.child_ne_self (place : Place) (name : String) : place.child name ≠ place := by
  intro h
  exact absurd (congrArg Place.depth h) (Nat.succ_ne_self _)

theorem Place.child_inj {place other : Place} {name last : String}
    (h : place.child name = other.child last) :
    place = other ∧ name = last := by
  have hparent := congrArg Place.parent h
  rw [Place.parent_child, Place.parent_child] at hparent
  exact ⟨hparent, Option.some.inj (congrArg Place.name? h)⟩

theorem Place.names_parent (place : Place) : place.parent.names = place.names.dropLast := by
  simp [Place.names, Place.parent]

theorem Place.isAbove_parent {place home : Place} (h : place.isAbove home = true) :
    place.parent.isAbove home = true := by
  rw [Place.isAbove_iff] at h ⊢
  rw [Place.names_parent]
  exact (List.dropLast_prefix _).trans h

theorem Path.name_child (path : Path) (name : String) : (path.child name).name = name := by
  simp [Path.name, Path.child]

namespace Tree

variable {tree tree' tree'' : Tree} {place target : Place} {path : Path} {name : String}
    {names : List String}

/-! ## Where paths lead -/

theorem follow_append {more : List String} :
    tree.follow place (names ++ more) = (tree.follow place names).bind fun found =>
      tree.follow found more := by
  induction names generalizing place with
  | nil => rfl
  | cons name names ih =>
    rw [List.cons_append, follow, follow]
    cases tree.item? place with
    | none => rfl
    | some item =>
      cases item with
      | file bytes => rfl
      | directory =>
        dsimp only
        split
        · rfl
        · exact ih

/-- Going on from a directory. -/
theorem follow_singleton (hplace : tree.item? place = some .directory) :
    tree.follow place [name] =
      if maxNameBytes < name.utf8ByteSize then .error .nameTooLong
      else .ok (if name = ".." then place.parent else place.child name) := by
  rw [follow, hplace]
  rfl

/-- The last of some names is followed from a directory. -/
theorem follow_concat (h : tree.follow place (names ++ [name]) = .ok target) :
    ∃ found, tree.follow place names = .ok found ∧ tree.item? found = some .directory ∧
      ¬ maxNameBytes < name.utf8ByteSize ∧
      target = if name = ".." then found.parent else found.child name := by
  rw [follow_append] at h
  cases hfound : tree.follow place names with
  | error reason =>
    rw [hfound] at h
    cases h
  | ok found =>
    rw [hfound] at h
    replace h : tree.follow found [name] = .ok target := h
    refine ⟨found, rfl, ?_⟩
    cases hitem : tree.item? found with
    | none =>
      rw [follow, hitem] at h
      cases h
    | some item =>
      cases item with
      | file bytes =>
        rw [follow, hitem] at h
        cases h
      | directory =>
        rw [follow_singleton hitem] at h
        split at h
        · cases h
        · next hlength => exact ⟨rfl, hlength, (Except.ok.inj h).symm⟩

/-- Without double dots, names lead to where they say. -/
theorem follow_eq_foldl (hnames : ".." ∉ names) (h : tree.follow place names = .ok target) :
    target = names.foldl Place.child place := by
  induction names using List.reverseRecOn generalizing target with
  | nil =>
    cases h
    rfl
  | append_singleton names name ih =>
    rw [List.mem_append, not_or, List.mem_singleton] at hnames
    obtain ⟨found, hfound, -, -, rfl⟩ := follow_concat h
    rw [if_neg (Ne.symm hnames.2), ih hnames.1 hfound, List.foldl_append]
    rfl

/-- A path leads to a directory. -/
structure Leads (tree : Tree) (path : Path) (place : Place) : Prop where
  follow : tree.follow (tree.origin path) path.names = .ok place
  directory : tree.item? place = some .directory

/-- What is found under a name is found in a directory. -/
theorem exists_leads_of_follow
    (h : tree.follow (tree.origin (path.child name)) (path.child name).names = .ok target) :
    ∃ place, tree.Leads path place := by
  obtain ⟨place, hplace, hdirectory, -, -⟩ := follow_concat h
  exact ⟨place, hplace, hdirectory⟩

/-- The paths in a directory lead to where their last name leads from it. -/
theorem Leads.follow_child (h : tree.Leads path place) (name : String) :
    tree.follow (tree.origin (path.child name)) (path.child name).names =
      if maxNameBytes < name.utf8ByteSize then .error .nameTooLong
      else .ok (if name = ".." then place.parent else place.child name) := by
  show tree.follow (tree.origin path) (path.names ++ [name]) = _
  rw [follow_append, h.follow]
  exact follow_singleton h.directory

/-- The paths in a directory lead to the same places in all trees in which it is this directory. -/
theorem locate_child (h : tree.Leads path place) (h' : tree'.Leads path place) :
    tree'.locate (path.child name) = tree.locate (path.child name) := by
  have hfollow := (h'.follow_child name).trans (h.follow_child name).symm
  unfold origin at hfollow
  unfold locate
  rw [hfollow]

/-- The answer depends on the place that the path leads to, and on what stands there. -/
theorem exists?_congr (hlocate : tree'.locate path = tree.locate path)
    (hitem : ∀ target, tree.locate path = .ok target → tree'.item? target = tree.item? target) :
    tree'.exists? path = tree.exists? path := by
  unfold exists?
  rw [hlocate]
  cases hplace : tree.locate path with
  | ok target => exact congrArg (fun item => Except.ok item.isSome) (hitem target hplace)
  | error failure =>
    cases failure with
    | refused reason path => cases reason <;> rfl
    | nul => rfl
    | tooDeep => rfl

/-- If a directory is there, a short name in it can be asked for as soon as it could in any tree:
what is left to refuse is the length of the path. -/
theorem Leads.exists?_child (h : tree'.Leads path place)
    (hname : ¬ maxNameBytes < name.utf8ByteSize) {found : Bool}
    (hfound : tree.exists? (path.child name) = .ok found) :
    ∃ found', tree'.exists? (path.child name) = .ok found' := by
  have hfollow := h.follow_child name
  rw [if_neg hname] at hfollow
  unfold origin at hfollow
  unfold exists? locate at hfound ⊢
  by_cases hnul : (path.child name).text.toList.contains '\x00' = true
  · rw [if_pos hnul]
    exact ⟨false, rfl⟩
  rw [if_neg hnul] at hfound ⊢
  by_cases hlong : maxPathBytes < (path.child name).text.utf8ByteSize
  · rw [if_pos hlong] at hfound
    cases hfound
  · rw [if_neg hlong, hfollow]
    exact ⟨_, rfl⟩

/-- If a directory is there, a short name in it can be asked for, unless the path is too long. -/
theorem Leads.exists?_child_of_askable (h : tree.Leads path place)
    (hname : ¬ maxNameBytes < name.utf8ByteSize) (haskable : (path.child name).Askable) :
    ∃ found, tree.exists? (path.child name) = .ok found := by
  have hfollow := h.follow_child name
  rw [if_neg hname] at hfollow
  rw [exists?, locate_eq_ok_iff.2 ⟨haskable, hfollow⟩]
  exact ⟨_, rfl⟩

theorem Leads.eq_child (h : tree.Leads path place) (hname : name ≠ "..")
    (hlocate : tree.locate (path.child name) = .ok target) : target = place.child name := by
  have hfollow := (locate_eq_ok_iff.1 hlocate).2
  rw [h.follow_child, if_neg hname] at hfollow
  split at hfollow
  · cases hfollow
  · exact (Except.ok.inj hfollow).symm

/-- A path in a directory leads to a directory exactly if there is one under its last name. -/
theorem Leads.leads_child_iff (h : tree.Leads path place) (hname : name ≠ "..") :
    tree.Leads (path.child name) target ↔
      ¬ maxNameBytes < name.utf8ByteSize ∧ target = place.child name ∧
      tree.item? target = some .directory := by
  have hfollow := h.follow_child name
  rw [if_neg hname] at hfollow
  constructor
  · intro hleads
    rw [hleads.follow] at hfollow
    split at hfollow
    · cases hfollow
    · next hlength => exact ⟨hlength, Except.ok.inj hfollow, hleads.directory⟩
  · rintro ⟨hlength, rfl, hitem⟩
    rw [if_neg hlength] at hfollow
    exact ⟨hfollow, hitem⟩

/-- What is read stands as a file where the path leads. -/
theorem read_eq_ok {bytes : List UInt8} (h : tree.read path = .ok bytes) :
    ∃ target, tree.locate path = .ok target ∧ tree.item? target = some (.file bytes) := by
  unfold read at h
  cases hlocate : tree.locate path with
  | error failure =>
    rw [hlocate] at h
    cases h
  | ok target =>
    rw [hlocate] at h
    refine ⟨target, rfl, ?_⟩
    cases hitem : tree.item? target with
    | none => simp [bind, Except.bind, hitem] at h
    | some item => cases item <;> simp_all [bind, Except.bind]

theorem mem_keys_of_file {bytes : List UInt8} (h : tree.item? place = some (.file bytes)) :
    place ∈ tree.items.keys := by
  unfold item? at h
  split at h
  · cases h
  · exact Ledger.mem_keys_iff.2 ⟨_, h⟩

/-! ## Trees that have grown -/

/-- A tree has changed at fresh places only, and every directory is still there. -/
structure Grown (fresh : Place → Prop) (tree tree' : Tree) : Prop where
  home : tree'.home = tree.home
  items : ∀ place, ¬ fresh place → tree'.items.get? place = tree.items.get? place
  directories : ∀ place, tree.item? place = some .directory → tree'.item? place = some .directory

namespace Grown

variable {fresh other : Place → Prop}

theorem refl (tree : Tree) : Grown fresh tree tree :=
  ⟨rfl, fun _ _ => rfl, fun _ h => h⟩

theorem trans (h : Grown fresh tree tree') (h' : Grown fresh tree' tree'') :
    Grown fresh tree tree'' where
  home := h'.home.trans h.home
  items place hold := (h'.items place hold).trans (h.items place hold)
  directories place hplace := h'.directories place (h.directories place hplace)

theorem mono (h : Grown fresh tree tree') (hfresh : ∀ place, fresh place → other place) :
    Grown other tree tree' where
  home := h.home
  items place hold := h.items place (mt (hfresh place) hold)
  directories := h.directories

/-- Where no directory stands, anything may be put. -/
theorem put (htarget : tree.item? target ≠ some .directory) (hfresh : fresh target) (item : Item) :
    Grown fresh tree (tree.put target item) where
  home := rfl
  items place hold := by
    have hne : place ≠ target := by
      rintro rfl
      exact hold hfresh
    exact Ledger.get?_insert_of_ne _ hne item
  directories _ hplace := directory_put htarget hplace

theorem item?_eq (h : Grown fresh tree tree') (hold : ¬ fresh place) :
    tree'.item? place = tree.item? place := by
  rw [item?, item?, h.home, h.items place hold]

theorem mem_keys_iff (h : Grown fresh tree tree') (hold : ¬ fresh place) :
    place ∈ tree'.items.keys ↔ place ∈ tree.items.keys := by
  rw [Ledger.mem_keys_iff, Ledger.mem_keys_iff, h.items place hold]

theorem leads (h : Grown fresh tree tree') (hleads : tree.Leads path place) :
    tree'.Leads path place where
  follow := by
    have horigin : tree'.origin path = tree.origin path := by
      rw [origin, origin, h.home]
    rw [horigin]
    exact follow_mono h.directories hleads.follow
  directory := h.directories place hleads.directory

theorem leads_child_iff (h : Grown fresh tree tree') (hleads : tree.Leads path place)
    (hname : name ≠ "..") (hold : ¬ fresh (place.child name)) :
    tree'.Leads (path.child name) target ↔ tree.Leads (path.child name) target := by
  rw [(h.leads hleads).leads_child_iff hname, hleads.leads_child_iff hname]
  refine and_congr_right fun _ => and_congr_right fun htarget => ?_
  rw [htarget, h.item?_eq hold]

/-- What stands in a directory at another place than the fresh ones is read as before. -/
theorem read_child (h : Grown fresh tree tree') (hleads : tree.Leads path place)
    (hname : name ≠ "..") (hold : ¬ fresh (place.child name)) :
    tree'.read (path.child name) = tree.read (path.child name) := by
  unfold read
  rw [locate_child hleads (h.leads hleads)]
  cases hlocate : tree.locate (path.child name) with
  | error failure => rfl
  | ok target =>
    obtain rfl := hleads.eq_child hname hlocate
    simp only [bind, Except.bind, h.item?_eq hold]

end Grown

/-! ## Listing -/

/-- The names in the directory at a place that end in a suffix, in order. -/
def namesIn (tree : Tree) (place : Place) (suffix : String) : List String :=
  ((tree.items.keys.filterMap fun key => if key.parent = place then key.name? else none).filter
    fun name => suffix.toList.isSuffixOf name.toList).mergeSort (· ≤ ·)

theorem mem_namesIn {suffix : String} :
    name ∈ tree.namesIn place suffix ↔
      place.child name ∈ tree.items.keys ∧ suffix.toList.isSuffixOf name.toList = true := by
  unfold namesIn
  rw [List.mem_mergeSort, List.mem_filter, List.mem_filterMap]
  refine and_congr_left fun _ => ?_
  constructor
  · rintro ⟨key, hkey, hname⟩
    split at hname
    · next hparent =>
      rwa [← Place.eq_child_iff.2 ⟨hparent, hname⟩]
    · cases hname
  · intro hkey
    exact ⟨_, hkey, by simp⟩

/-- The names in a directory are all different and stand in order. -/
theorem sortedLT_namesIn (tree : Tree) (place : Place) (suffix : String) :
    (tree.namesIn place suffix).SortedLT := by
  refine List.SortedLE.sortedLT_of_nodup List.sortedLE_mergeSort ?_
  refine (List.mergeSort_perm _ _).nodup_iff.2 (List.Nodup.filter _ ?_)
  refine List.Nodup.filterMap (fun key other name hkey hother => ?_) tree.items.nodup
  have hplace : ∀ found : Place, name ∈ (if found.parent = place then found.name? else none) →
      found = place.child name := by
    intro found hfound
    split at hfound
    · next hparent => exact Place.eq_child_iff.2 ⟨hparent, hfound⟩
    · cases hfound
  rw [hplace key hkey, hplace other hother]

/-- The names in a directory are known from the places in it. -/
theorem namesIn_eq {suffix : String}
    (h : ∀ name, place.child name ∈ tree'.items.keys ↔ place.child name ∈ tree.items.keys) :
    tree'.namesIn place suffix = tree.namesIn place suffix := by
  refine (sortedLT_namesIn tree' place suffix).eq_of_mem_iff (sortedLT_namesIn tree place suffix)
    fun name => ?_
  rw [mem_namesIn, mem_namesIn, h]

theorem list_of_leads {suffix : String} (haskable : path.Askable) (hleads : tree.Leads path place) :
    tree.list path suffix = (tree.namesIn place suffix).map path.child := by
  unfold list
  rw [locate_eq_ok_iff.2 ⟨haskable, hleads.follow⟩]
  exact if_pos hleads.directory

/-- Names that stand in order already are listed as they stand. -/
theorem list_of_sorted (place : Place) {suffix : String} (hlocate : tree.locate path = .ok place)
    (hplace : tree.item? place = some .directory)
    (hnames : ((tree.items.keys.filterMap fun key =>
      if key.parent = place then key.name? else none).filter fun name =>
        suffix.toList.isSuffixOf name.toList) = names)
    (hsorted : names.Pairwise fun name last => decide (name ≤ last) = true) :
    tree.list path suffix = names.map path.child := by
  unfold list
  rw [hlocate]
  dsimp only
  rw [if_pos hplace, hnames, List.mergeSort_of_pairwise hsorted]

/-- Paths are listed in the order of their names, which are all different. -/
theorem pairwise_list (tree : Tree) (path : Path) (suffix : String) :
    (tree.list path suffix).Pairwise fun listed later => listed.name < later.name := by
  unfold list
  split
  · exact .nil
  next place hlocate =>
  split
  · refine List.pairwise_map.2
      ((sortedLT_namesIn tree place suffix).pairwise.imp fun {name last} hlt => ?_)
    rwa [Path.name_child, Path.name_child]
  · exact .nil

/-- What is listed at a path are paths with the suffix in the directory that it leads to. -/
theorem exists_of_mem_list {suffix : String} {listed : Path} (h : listed ∈ tree.list path suffix) :
    ∃ place name, tree.Leads path place ∧ listed = path.child name ∧
      suffix.toList.isSuffixOf name.toList = true := by
  unfold list at h
  split at h
  · cases h
  next place hlocate =>
  split at h
  · next hplace =>
    obtain ⟨name, hname, rfl⟩ := List.mem_map.1 h
    exact ⟨place, name, ⟨(locate_eq_ok_iff.1 hlocate).2, hplace⟩, rfl, (mem_namesIn.1 hname).2⟩
  · cases h

/-- Nothing is listed unless the path leads to a directory. -/
theorem list_eq_nil {suffix : String} (h : path.Askable → ∀ place, ¬ tree.Leads path place) :
    tree.list path suffix = [] := by
  unfold list
  cases hlocate : tree.locate path with
  | error failure => rfl
  | ok place =>
    obtain ⟨haskable, hfollow⟩ := locate_eq_ok_iff.1 hlocate
    exact if_neg fun hplace => h haskable place ⟨hfollow, hplace⟩

theorem list_of_exists?_eq_false {suffix : String} (h : tree.exists? path = .ok false) :
    tree.list path suffix = [] := by
  refine list_eq_nil fun haskable place hleads => ?_
  rw [exists?, locate_eq_ok_iff.2 ⟨haskable, hleads.follow⟩] at h
  have hnone : (tree.item? place).isSome = false := Except.ok.inj h
  rw [hleads.directory] at hnone
  cases hnone

/-- A path in a directory is listed as before, if neither it nor anything in it is fresh. -/
theorem Grown.list_child_eq {fresh : Place → Prop} {suffix : String} (h : Grown fresh tree tree')
    (hleads : tree.Leads path place) (hname : name ≠ "..") (hold : ¬ fresh (place.child name))
    (hinner : ∀ inner, ¬ fresh ((place.child name).child inner)) :
    tree'.list (path.child name) suffix = tree.list (path.child name) suffix := by
  by_cases hchild : (path.child name).Askable ∧ tree.Leads (path.child name) (place.child name)
  · obtain ⟨haskable, hchild⟩ := hchild
    rw [list_of_leads haskable hchild, list_of_leads haskable (h.leads hchild),
      namesIn_eq fun inner => h.mem_keys_iff (hinner inner)]
  · have hnowhere :
        ∀ target, (path.child name).Askable → ¬ tree.Leads (path.child name) target := by
      intro target haskable htarget
      obtain rfl := ((hleads.leads_child_iff hname).1 htarget).2.1
      exact hchild ⟨haskable, htarget⟩
    rw [list_eq_nil fun haskable target => hnowhere target haskable,
      list_eq_nil fun haskable target htarget => ?_]
    exact hnowhere target haskable ((h.leads_child_iff hleads hname hold).1 htarget)

end Tree

end Colloquy.Files
