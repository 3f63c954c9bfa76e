import Colloquy.Proofs.Files.Directories

/-!
# Making directories in closed trees

In a closed tree, whatever there is stands in a directory. Writing and deleting files and making
directories keep a tree closed.

Directories are made at places where nothing stood, so they are empty. If the directory above is
there, only the last one is made (`makeDirectories_child`). If it is missing, those on the way are
made too, and, as long as there are no double dots on the way, nothing is found in any of them
(`list_eq_nil_of_makeDirectories`).
-/

namespace Colloquy.Files.Tree

variable {tree tree' : Tree} {place target : Place} {path : Path} {name : String}
    {names : List String}

/-! ## Closed trees -/

/-- Whatever there is stands in a directory. -/
def Closed (tree : Tree) : Prop :=
  ∀ place ∈ tree.items.keys, tree.item? place.parent = some .directory

theorem closed_bare (home : Place) : (bare home).Closed := by
  intro place hplace
  cases hplace

/-- What is put into a directory, where none stands, leaves a tree closed. -/
theorem Closed.put (h : tree.Closed) (htarget : tree.item? target ≠ some .directory)
    (hparent : tree.item? target.parent = some .directory) (item : Item) :
    (tree.put target item).Closed := by
  intro place hplace
  refine directory_put htarget ?_
  by_cases hnew : place = target
  · rw [hnew]
    exact hparent
  · have hgrown : Grown (· = target) tree (tree.put target item) := by
      refine .put htarget ?_ item
      rfl
    exact h place ((hgrown.mem_keys_iff hnew).1 hplace)

/-- In a closed tree, everything stands in a directory. -/
theorem Closed.parent (h : tree.Closed) {item : Item} (hplace : tree.item? place = some item) :
    tree.item? place.parent = some .directory := by
  unfold item? at hplace
  split at hplace
  · next habove => rw [item?, if_pos (Place.isAbove_parent habove)]
  · exact h place (Ledger.mem_keys_iff.2 ⟨item, hplace⟩)

/-- A path that leads to something else than a directory leads through the directory above. -/
theorem Closed.parent_of_locate (h : tree.Closed) (hlocate : tree.locate path = .ok target)
    (htarget : tree.item? target ≠ some .directory) :
    tree.item? target.parent = some .directory := by
  have hfollow := (locate_eq_ok_iff.1 hlocate).2
  rcases List.eq_nil_or_concat path.names with hnames | ⟨names, name, hnames⟩
  · rw [hnames] at hfollow
    cases hfollow
    refine absurd ?_ htarget
    rw [item?, if_pos]
    unfold origin
    split
    · exact (Place.isAbove_iff _ _).2 List.nil_prefix
    · exact (Place.isAbove_iff _ _).2 List.prefix_rfl
  · rw [hnames, List.concat_eq_append] at hfollow
    obtain ⟨found, -, hfound, -, rfl⟩ := follow_concat hfollow
    split at htarget
    · exact absurd (h.parent hfound) htarget
    · next hname => rwa [if_neg hname, Place.parent_child]

theorem Closed.write (h : tree.Closed) {bytes : List UInt8}
    (hwrite : tree.write path bytes = .ok tree') :
    tree'.Closed := by
  obtain ⟨target, hlocate, htarget, rfl⟩ := write_eq_ok hwrite
  exact h.put htarget (h.parent_of_locate hlocate htarget) _

theorem delete_eq_ok (h : tree.delete path = .ok tree') :
    ∃ target bytes, tree.item? target = some (.file bytes) ∧
      tree' = { tree with items := tree.items.erase target } := by
  unfold delete at h
  cases hlocate : tree.locate path with
  | error failure =>
    rw [hlocate] at h
    cases h
  | ok target =>
    rw [hlocate] at h
    cases hitem : tree.item? target with
    | none => simp [bind, Except.bind, hitem] at h
    | some item =>
      cases item with
      | directory => simp [bind, Except.bind, hitem] at h
      | file bytes =>
        simp only [bind, Except.bind, hitem, Except.ok.injEq] at h
        exact ⟨target, bytes, hitem, h.symm⟩

/-- Nothing stands in a file, so a file can go. -/
theorem Closed.delete (h : tree.Closed) (hdelete : tree.delete path = .ok tree') :
    tree'.Closed := by
  obtain ⟨target, bytes, htarget, rfl⟩ := delete_eq_ok hdelete
  intro place hplace
  obtain ⟨item, hitem⟩ := Ledger.mem_keys_iff.1 hplace
  have hplace' : place ≠ target := by
    rintro rfl
    rw [Ledger.get?_erase_self] at hitem
    cases hitem
  rw [Ledger.get?_erase_of_ne _ hplace'] at hitem
  have hparent := h place (Ledger.mem_keys_iff.2 ⟨item, hitem⟩)
  have hparent' : place.parent ≠ target := by
    intro heq
    rw [heq, htarget] at hparent
    cases hparent
  unfold item? at hparent ⊢
  rwa [Ledger.get?_erase_of_ne _ hparent']

/-! ## Making directories -/

/-- A directory is either there or put where there is nothing. -/
theorem ensureDirectory_eq_ok (h : tree.ensureDirectory path = .ok tree') :
    ∃ target, tree.locate path = .ok target ∧
      (tree.item? target = some .directory ∧ tree' = tree ∨
        tree.item? target = none ∧ tree' = tree.put target .directory) := by
  unfold ensureDirectory makeDirectory isDirectory at h
  cases hlocate : tree.locate path with
  | error failure =>
    rw [hlocate] at h
    cases h
  | ok target =>
    rw [hlocate] at h
    refine ⟨target, rfl, ?_⟩
    cases hitem : tree.item? target with
    | none =>
      simp only [bind, Except.bind, hitem, Except.ok.injEq] at h
      exact .inr ⟨rfl, h.symm⟩
    | some item =>
      cases item with
      | file bytes =>
        simp [bind, Except.bind, hitem] at h
      | directory =>
        simp [bind, Except.bind, hitem] at h
        exact .inl ⟨rfl, h.symm⟩

theorem Closed.ensureDirectory (h : tree.Closed) (hmade : tree.ensureDirectory path = .ok tree') :
    tree'.Closed := by
  obtain ⟨target, hlocate, ⟨-, rfl⟩ | ⟨hitem, rfl⟩⟩ := ensureDirectory_eq_ok hmade
  · exact h
  · have htarget : tree.item? target ≠ some .directory := by
      rw [hitem]
      simp
    exact h.put htarget (h.parent_of_locate hlocate htarget) _

theorem grown_of_ensureDirectory (hnames : ".." ∉ path.names)
    (h : tree.ensureDirectory path = .ok tree') :
    Grown (fun place => place.isAbove (path.names.foldl Place.child (tree.origin path)) = true)
      tree tree' := by
  obtain ⟨target, hlocate, ⟨-, rfl⟩ | ⟨hitem, rfl⟩⟩ := ensureDirectory_eq_ok h
  · exact .refl _
  · have htarget : tree.item? target ≠ some .directory := by
      rw [hitem]
      simp
    refine .put htarget ?_ _
    rw [← follow_eq_foldl hnames (locate_eq_ok_iff.1 hlocate).2]
    exact (Place.isAbove_iff _ _).2 List.prefix_rfl

/-- The path of the first `count` names. -/
def first (path : Path) (count : Nat) : Path :=
  { path with names := path.names.take count }

/-- A directory is made at once, or after those above it, if the one above it is missing. -/
theorem makeFirst_succ_eq_ok {count room : Nat}
    (h : tree.makeFirst path (count + 1) room = .ok tree') :
    tree.ensureDirectory (first path (count + 1)) = .ok tree' ∨
      tree.ensureDirectory (first path (count + 1)) =
          .error (.refused .notFound (first path (count + 1))) ∧
        ∃ less made, tree.makeFirst path count less = .ok made ∧
          made.ensureDirectory (first path (count + 1)) = .ok tree' := by
  unfold makeFirst at h
  dsimp only at h
  split at h
  · next made hmade =>
    cases h
    exact .inl hmade
  · next failure hfailed =>
    split at h
    · next hmissing =>
      rw [hmissing] at hfailed
      refine .inr ⟨hfailed, ?_⟩
      cases room with
      | zero => cases h
      | succ room =>
        replace h :
            (tree.makeFirst path count room).bind (·.ensureDirectory (first path (count + 1))) =
              .ok tree' := h
        cases hmade : tree.makeFirst path count room with
        | error failure =>
          rw [hmade] at h
          cases h
        | ok made =>
          rw [hmade] at h
          exact ⟨room, made, hmade, h⟩
    · cases h

/-- Without double dots, the directories that are made stand on the way to the last one. -/
theorem grown_of_makeFirst {count room : Nat} (hnames : ".." ∉ path.names)
    (h : tree.makeFirst path count room = .ok tree') :
    Grown (fun place =>
        place.isAbove ((path.names.take count).foldl Place.child (tree.origin path)) = true)
      tree tree' := by
  induction count generalizing room tree' with
  | zero =>
    cases h
    exact .refl tree
  | succ count ih =>
    have hhere : ".." ∉ (first path (count + 1)).names :=
      fun hmem => hnames (List.mem_of_mem_take hmem)
    rcases makeFirst_succ_eq_ok h with hmade | ⟨-, less, made, habove, hlast⟩
    · exact grown_of_ensureDirectory hhere hmade
    · have hmade := ih habove
      have horigin : made.origin path = tree.origin path := by
        rw [origin, origin, hmade.home]
      refine (hmade.mono fun place hplace => ?_).trans
        ((grown_of_ensureDirectory hhere hlast).mono fun place hplace => ?_)
      · rw [Place.isAbove_iff, Place.names_foldl_child] at hplace ⊢
        exact hplace.trans
          ((List.prefix_append_right_inj _).2 (List.take_prefix_take_left (by omega)))
      · rwa [← horigin]

theorem Closed.makeDirectories (h : tree.Closed) (hmade : tree.makeDirectories path = .ok tree') :
    tree'.Closed := by
  unfold Tree.makeDirectories at hmade
  generalize maxMissing = room at hmade
  generalize path.names.length = count at hmade
  induction count generalizing room tree' with
  | zero =>
    cases hmade
    exact h
  | succ count ih =>
    rcases makeFirst_succ_eq_ok hmade with hmade | ⟨-, less, made, habove, hlast⟩
    · exact h.ensureDirectory hmade
    · exact (ih less habove).ensureDirectory hlast

/-- In a directory, nothing is missing on the way to what is asked for. -/
theorem Leads.locate_child_ne_notFound (h : tree.Leads path place) {other : Path} :
    tree.locate (path.child name) ≠ .error (.refused .notFound other) := by
  have hfollow := h.follow_child name
  unfold origin at hfollow
  unfold locate
  rw [hfollow]
  split
  · simp
  · split
    · simp
    · split <;> simp [Except.mapError]

theorem locate_of_ensureDirectory_missing {other : Path}
    (h : tree.ensureDirectory path = .error (.refused .notFound other)) :
    tree.locate path = .error (.refused .notFound other) := by
  unfold ensureDirectory makeDirectory isDirectory at h
  cases hlocate : tree.locate path with
  | error failure =>
    rw [hlocate] at h
    cases h
    rfl
  | ok target =>
    rw [hlocate] at h
    cases hitem : tree.item? target with
    | none => simp [bind, Except.bind, hitem] at h
    | some item => cases item <;> simp [bind, Except.bind, hitem] at h

/-- Where the directory above is there, only the last directory may be missing. -/
theorem makeDirectories_child (hleads : tree.Leads path place) (hname : name ≠ "..")
    (h : tree.makeDirectories (path.child name) = .ok tree') :
    (path.child name).Askable ∧ tree'.Leads (path.child name) (place.child name) ∧
      Grown (· = place.child name) tree tree' := by
  have hlength : (path.child name).names.length = path.names.length + 1 := by
    simp [Path.child]
  have hhere : first (path.child name) (path.names.length + 1) = path.child name := by
    rw [first, ← hlength, List.take_length]
  rw [makeDirectories, hlength] at h
  have hmade : tree.ensureDirectory (path.child name) = .ok tree' := by
    rcases makeFirst_succ_eq_ok h with hmade | ⟨hmissing, -⟩
    · rwa [hhere] at hmade
    · rw [hhere] at hmissing
      exact absurd (locate_of_ensureDirectory_missing hmissing) hleads.locate_child_ne_notFound
  obtain ⟨target, hlocate, hcases⟩ := ensureDirectory_eq_ok hmade
  obtain rfl := hleads.eq_child hname hlocate
  obtain ⟨haskable, hfollow⟩ := locate_eq_ok_iff.1 hlocate
  rcases hcases with ⟨hitem, rfl⟩ | ⟨hitem, rfl⟩
  · exact ⟨haskable, ⟨hfollow, hitem⟩, .refl _⟩
  · have htarget : tree.item? (place.child name) ≠ some .directory := by
      rw [hitem]
      simp
    refine ⟨haskable,
      ⟨(locate_eq_ok_iff.1 (locate_put htarget hlocate)).2, item?_put_self htarget⟩, ?_⟩
    refine .put htarget ?_ _
    rfl

/-- A directory is made in one that is there in the end. -/
theorem leads_of_makeDirectories (h : tree.makeDirectories (path.child name) = .ok tree') :
    ∃ place, tree'.Leads path place := by
  have hlength : (path.child name).names.length = path.names.length + 1 := by
    simp [Path.child]
  have hhere : first (path.child name) (path.names.length + 1) = path.child name := by
    rw [first, ← hlength, List.take_length]
  obtain ⟨before, hmade⟩ :
      ∃ before : Tree, before.ensureDirectory (path.child name) = .ok tree' := by
    rw [makeDirectories, hlength] at h
    obtain hmade | ⟨-, -, before, -, hmade⟩ := makeFirst_succ_eq_ok h
    · exact ⟨tree, by rwa [hhere] at hmade⟩
    · exact ⟨before, by rwa [hhere] at hmade⟩
  obtain ⟨target, hlocate, hcases⟩ := ensureDirectory_eq_ok hmade
  obtain ⟨place, hleads⟩ := exists_leads_of_follow (locate_eq_ok_iff.1 hlocate).2
  refine ⟨place, ?_⟩
  obtain ⟨-, rfl⟩ | ⟨hitem, rfl⟩ := hcases
  · exact hleads
  · have htarget : before.item? target ≠ some .directory := by
      rw [hitem]
      simp
    have hgrown : Grown (· = target) before (before.put target .directory) := by
      refine .put htarget ?_ _
      rfl
    exact hgrown.leads hleads

/-! ## What is listed in new directories -/

/-- In a closed tree, nothing is in a place that is no directory. -/
theorem Closed.namesIn_eq_nil (h : tree.Closed) (hplace : tree.item? place ≠ some .directory)
    {suffix : String} :
    tree.namesIn place suffix = [] := by
  rw [List.eq_nil_iff_forall_not_mem]
  intro name hname
  exact hplace (Place.parent_child place name ▸ h _ (mem_namesIn.1 hname).1)

/-- In a closed tree, what is listed at a path is what there is in the place that it leads to. -/
theorem Closed.list_eq (h : tree.Closed) (hlocate : tree.locate path = .ok place)
    {suffix : String} :
    tree.list path suffix = (tree.namesIn place suffix).map path.child := by
  unfold list
  rw [hlocate]
  dsimp only
  split
  · rfl
  · next hplace => rw [h.namesIn_eq_nil hplace, List.map_nil]

/-- Names without double dots that lead to a place in some tree lead there in every closed one in
which the place is a directory. -/
theorem Closed.follow_of_follow (h : tree.Closed) (hnames : ".." ∉ names)
    (hfollow : tree'.follow place names = .ok target)
    (htarget : tree.item? target = some .directory) :
    tree.follow place names = .ok target := by
  induction names using List.reverseRecOn generalizing target with
  | nil => exact hfollow
  | append_singleton names name ih =>
    rw [List.mem_append, not_or, List.mem_singleton] at hnames
    obtain ⟨found, hfound, -, hlength, rfl⟩ := follow_concat hfollow
    have hname : name ≠ ".." := Ne.symm hnames.2
    rw [if_neg hname] at htarget ⊢
    have hparent := h.parent htarget
    rw [Place.parent_child] at hparent
    rw [follow_append, ih hnames.1 hfound hparent]
    show tree.follow found [name] = _
    rw [follow_singleton hparent, if_neg hlength, if_neg hname]

/-- Nothing is listed in the directories of a path that leads to no directory. -/
theorem list_child_eq_nil (hmissing : ∀ place, ¬ tree.Leads path place) {suffix : String} :
    tree.list (path.child name) suffix = [] := by
  refine list_eq_nil fun _ target hleads => ?_
  obtain ⟨found, hfound, hdirectory, -⟩ := follow_concat hleads.follow
  exact hmissing found ⟨hfound, hdirectory⟩

/-- Directories that are made together with the one above them are empty. -/
theorem Closed.list_eq_nil_of_makeDirectories (h : tree.Closed) (hnames : ".." ∉ path.names)
    (hmissing : ∀ place, ¬ tree.Leads path place) {made inner suffix : String}
    (hinner : inner ≠ "..") (hmade : made ≠ "..")
    (hdone : tree.makeDirectories (path.child made) = .ok tree') :
    tree'.list (path.child inner) suffix = [] := by
  have hpath : ".." ∉ (path.child made).names := by
    simpa [Path.child, hnames] using Ne.symm hmade
  have hgrown := grown_of_makeFirst hpath hdone
  rw [List.take_length] at hgrown
  by_cases hleads : ∃ place, (path.child inner).Askable ∧ tree'.Leads (path.child inner) place
  · obtain ⟨place, haskable, hleads⟩ := hleads
    obtain ⟨found, hfound, -, -, rfl⟩ := follow_concat hleads.follow
    have horigin : tree'.origin (path.child inner) = tree.origin path := by
      unfold origin
      rw [hgrown.home]
      rfl
    rw [horigin] at hfound
    rw [if_neg hinner] at hleads
    rw [list_of_leads haskable hleads, List.map_eq_nil_iff, List.eq_nil_iff_forall_not_mem]
    intro name hname
    -- what is in there is deeper than all that has been made, so it was there before
    have hdeep : ¬ ((found.child inner).child name).isAbove
        ((path.child made).names.foldl Place.child (tree.origin path)) = true := by
      intro habove
      have hlength := ((Place.isAbove_iff _ _).1 habove).length_le
      simp [follow_eq_foldl hnames hfound, Place.names_foldl_child, Path.child] at hlength
    have hplace := h _ ((hgrown.mem_keys_iff hdeep).1 (mem_namesIn.1 hname).1)
    rw [Place.parent_child] at hplace
    have hparent := h.parent hplace
    rw [Place.parent_child] at hparent
    exact hmissing found ⟨h.follow_of_follow hnames hfound hparent, hparent⟩
  · exact list_eq_nil fun haskable place hplace => hleads ⟨place, haskable, hplace⟩

end Colloquy.Files.Tree
