import Colloquy.Proofs.Files.Removing
import Colloquy.Proofs.Library.Entries
import Colloquy.Proofs.Library.Written

/-!
# Files that cannot be read

A stored file breaks the loading off if its text is not in UTF-8, holds an integer that is too
long, or nests too deeply (`exists_entry_iff`). Every other file that cannot be read is a failure,
which names the file.

In a tree from which these files, and whatever is in them, have been taken away, the other files
are listed as before and give what they gave (`entriesIn_without`), provided that the directory of
the library is still found.
-/

namespace Colloquy.Library

open Files

variable {library : Library} {tree tree' : Tree} {path : Path} {root : Place}

/-! ## Files that break the loading off -/

/-- Reading a stored file at a path ends the loading. -/
inductive BreaksOff (tree : Tree) (path : Path) : Prop where
  | encoding {bytes : List UInt8} {failure : Utf8.Failure} (hread : tree.read path = .ok bytes)
      (hdecode : Utf8.decode bytes = .error failure)
  | longInteger {text : String} {digits : Nat} (hread : tree.readText path = .ok text)
      (hjson : Json.read text.toList = .error (.longInteger digits))
  | tooDeep {text : String} {object : Bool} (hread : tree.readText path = .ok text)
      (hjson : Json.read text.toList = .error (.tooDeep object))
  /-- No file has such a name. -/
  | nul (hpath : path.text.toList.contains '\x00' = true)

/-- The system refuses to look for a file, unless its path holds a NUL. -/
theorem locate_eq_error {failure : Failure} (h : tree.locate path = .error failure) :
    (failure = .nul ∧ path.text.toList.contains '\x00' = true) ∨
      (∃ reason, failure = .refused reason path) ∧ ¬ path.text.toList.contains '\x00' = true := by
  unfold Tree.locate at h
  split at h
  · next hnul => exact .inl ⟨(Except.error.inj h).symm, hnul⟩
  · next hnul =>
    refine .inr ⟨?_, hnul⟩
    split at h
    · exact ⟨_, (Except.error.inj h).symm⟩
    · cases hfollow : tree.follow (if path.isAbsolute then .top else tree.home) path.names with
      | error reason =>
        rw [hfollow] at h
        exact ⟨_, (Except.error.inj h).symm⟩
      | ok place =>
        rw [hfollow] at h
        cases h

/-- The system refuses to read a file, unless its path holds a NUL. -/
theorem read_eq_error {failure : Failure} (h : tree.read path = .error failure) :
    (failure = .nul ∧ path.text.toList.contains '\x00' = true) ∨
      (∃ reason, failure = .refused reason path) ∧ ¬ path.text.toList.contains '\x00' = true := by
  unfold Tree.read at h
  cases hlocate : tree.locate path with
  | error failure' =>
    rw [hlocate] at h
    cases h
    exact locate_eq_error hlocate
  | ok place =>
    rw [hlocate] at h
    refine .inr ⟨?_, (Tree.locate_eq_ok_iff.1 hlocate).1.1⟩
    cases hitem : tree.item? place with
    | none =>
      simp only [bind, Except.bind, hitem, Except.error.injEq] at h
      exact ⟨_, h.symm⟩
    | some item =>
      cases item with
      | file bytes => simp [bind, Except.bind, hitem] at h
      | directory =>
        simp only [bind, Except.bind, hitem, Except.error.injEq] at h
        exact ⟨_, h.symm⟩

theorem askable_of_readText {text : String} (h : tree.readText path = .ok text) : path.Askable := by
  unfold Tree.readText at h
  cases hread : tree.read path with
  | error failure =>
    rw [hread] at h
    cases h
  | ok bytes =>
    obtain ⟨place, hlocate, -⟩ := Tree.read_eq_ok hread
    exact (Tree.locate_eq_ok_iff.1 hlocate).1

/-- A text that is read breaks the loading off if it holds an integer that is too long, or nests
too deeply. -/
theorem breaksOff_iff_of_readText {text : String} (h : tree.readText path = .ok text) :
    BreaksOff tree path ↔ (∃ digits, Json.read text.toList = .error (.longInteger digits)) ∨
      ∃ object, Json.read text.toList = .error (.tooDeep object) := by
  constructor
  · intro hbreaks
    cases hbreaks with
    | encoding hread hdecode =>
      rw [Tree.readText, hread] at h
      dsimp only at h
      rw [hdecode] at h
      cases h
    | longInteger hread hjson =>
      cases h.symm.trans hread
      exact .inl ⟨_, hjson⟩
    | tooDeep hread hjson =>
      cases h.symm.trans hread
      exact .inr ⟨_, hjson⟩
    | nul hpath => exact absurd hpath (askable_of_readText h).1
  · rintro (⟨digits, hjson⟩ | ⟨object, hjson⟩)
    · exact .longInteger h hjson
    · exact .tooDeep h hjson

theorem exists_entry_iff_of_readText {text : String} (h : tree.readText path = .ok text) :
    (∃ entry, Entry.ofStored tree path = .ok entry) ↔ ¬ BreaksOff tree path := by
  rw [breaksOff_iff_of_readText h]
  unfold Entry.ofStored Graph.load Tree.readJson
  rw [h]
  dsimp only
  cases hjson : Json.read text.toList with
  | ok data =>
    dsimp only
    cases Graph.ofJson data <;> simp [GraphProblem.isFormat]
  | error problem =>
    cases problem with
    | syntaxError cause remaining => simp [GraphProblem.isFormat]
    | longInteger digits => simp [GraphProblem.isFormat, GraphProblem.isSystem]
    | tooDeep object => simp [GraphProblem.isFormat, GraphProblem.isSystem]

theorem ofStored_of_readText {problem : TextProblem} (h : tree.readText path = .error problem) :
    Entry.ofStored tree path =
      if problem.isSystem then .ok (.failure path (.data (.text problem))) else .error
        (.data (.text problem)) := by
  unfold Entry.ofStored Graph.load Tree.readJson
  rw [h]
  simp [GraphProblem.isFormat, GraphProblem.isSystem]

/-- A stored file gives an entry exactly if it does not break the loading off. -/
theorem exists_entry_iff :
    (∃ entry, Entry.ofStored tree path = .ok entry) ↔ ¬ BreaksOff tree path := by
  cases htext : tree.readText path with
  | ok text => exact exists_entry_iff_of_readText htext
  | error problem =>
    rw [ofStored_of_readText htext]
    cases hread : tree.read path with
    | ok bytes =>
      rw [Tree.readText, hread] at htext
      dsimp only at htext
      split at htext
      · next failure hdecode =>
        cases htext
        exact iff_of_false (by simp [TextProblem.isSystem])
          (not_not_intro (.encoding hread hdecode))
      · cases htext
    | error failure =>
      obtain rfl : problem = .system failure := by
        rw [Tree.readText, hread] at htext
        exact (Except.error.inj htext).symm
      obtain ⟨rfl, hnul⟩ | ⟨⟨reason, rfl⟩, hnul⟩ := read_eq_error hread
      · exact iff_of_false (by simp [TextProblem.isSystem]) (not_not_intro (.nul hnul))
      · refine iff_of_true ⟨_, if_pos rfl⟩ fun hbreaks => ?_
        cases hbreaks with
        | encoding hbytes hdecode => cases hread.symm.trans hbytes
        | longInteger htext' hjson => cases htext.symm.trans htext'
        | tooDeep htext' hjson => cases htext.symm.trans htext'
        | nul hpath => exact hnul hpath

/-! ## Failures -/

/-- The files that cannot be read, each with what is wrong with it, in the order in which they are
read. -/
def failures (library : Library) (tree : Tree) : List (Path × String) :=
  (library.entries tree).filterMap Entry.failure?

/-- A place is gone with the files that cannot be read: it is that of one of them, or in it. -/
def Fallen (library : Library) (tree : Tree) (place : Place) : Prop :=
  ∃ failure ∈ library.failures tree, ∃ target,
    tree.StandsAt failure.1 target ∧ target.isAbove place = true

/-- The two parts of the directory of a library. -/
inductive Part where
  | scripts
  | stored

namespace Part

/-- The name of the directory of a part. -/
def name : Part → String
  | .scripts => "scripts"
  | .stored => "compiled"

/-- The ending of the names of the files in a part. -/
def suffix : Part → String
  | .scripts => scriptSuffix
  | .stored => storedSuffix

/-- What a file in a part gives. -/
def entry (settings : Script.Settings) (tree : Tree) (path : Path) : Part → Entry
  | .scripts => .ofScript settings tree path
  | .stored => .ofGraph tree path

theorem name_ne_dots (part : Part) : part.name ≠ ".." := by
  cases part <;> decide

theorem name_injective {part other : Part} (h : part.name = other.name) : part = other := by
  cases part <;> cases other <;> first | rfl | exact absurd h (by decide)

theorem suffix_length (part : Part) : 2 < part.suffix.length := by
  cases part <;> decide

end Part

/-- The files in a part. -/
def files (library : Library) (tree : Tree) (part : Part) : List Path :=
  tree.list (library.root.child part.name) part.suffix

/-- What the files in a part give. -/
def entriesIn (library : Library) (tree : Tree) (part : Part) : List Entry :=
  (library.files tree part).map fun path => part.entry library.settings tree path

theorem entries_eq_append (library : Library) (tree : Tree) :
    library.entries tree = library.entriesIn tree .scripts ++ library.entriesIn tree .stored :=
  rfl

/-- An entry names its own file. -/
theorem failure?_entry {settings : Script.Settings} {part : Part} {failure : Path × String}
    (h : (part.entry settings tree path).failure? = some failure) : failure.1 = path := by
  cases part with
  | scripts =>
    unfold Part.entry Entry.ofScript at h
    dsimp only at h
    split at h <;> cases h
    rfl
  | stored =>
    unfold Part.entry Entry.ofGraph at h
    dsimp only at h
    split at h <;> cases h
    rfl

theorem mem_failures_iff {failure : Path × String} :
    failure ∈ library.failures tree ↔
      ∃ part, failure.1 ∈ library.files tree part ∧
        (Part.entry library.settings tree failure.1 part).failure? = some failure := by
  have hpart (part : Part) :
      (∃ entry ∈ library.entriesIn tree part, entry.failure? = some failure) ↔
        failure.1 ∈ library.files tree part ∧
          (Part.entry library.settings tree failure.1 part).failure? = some failure := by
    unfold entriesIn
    constructor
    · rintro ⟨entry, hentry, hfailure⟩
      obtain ⟨path, hpath, rfl⟩ := List.mem_map.1 hentry
      obtain rfl := failure?_entry hfailure
      exact ⟨hpath, hfailure⟩
    · rintro ⟨hpath, hfailure⟩
      exact ⟨_, List.mem_map_of_mem hpath, hfailure⟩
  unfold failures
  rw [entries_eq_append, List.mem_filterMap]
  constructor
  · rintro ⟨entry, hentry, hfailure⟩
    rcases List.mem_append.1 hentry with hentry | hentry
    · exact ⟨_, (hpart _).1 ⟨entry, hentry, hfailure⟩⟩
    · exact ⟨_, (hpart _).1 ⟨entry, hentry, hfailure⟩⟩
  · rintro ⟨part, hfailure⟩
    obtain ⟨entry, hentry, hfailure⟩ := (hpart part).2 hfailure
    refine ⟨entry, List.mem_append.2 ?_, hfailure⟩
    cases part with
    | scripts => exact .inl hentry
    | stored => exact .inr hentry

/-! ## Places of files -/

/-- The files of a part stand in its directory, which is in that of the library. -/
theorem exists_root {part : Part} {target : Place} (hpath : path ∈ library.files tree part)
    (htarget : tree.StandsAt path target) :
    ∃ root name, tree.Leads library.root root ∧ path = (library.root.child part.name).child name ∧
      target = (root.child part.name).child name ∧ name ≠ ".." := by
  obtain ⟨place, name, hplace, rfl, hname⟩ := Tree.exists_of_mem_list hpath
  obtain ⟨root, hroot⟩ := hplace.exists_parent
  obtain rfl := ((hroot.leads_child_iff part.name_ne_dots).1 hplace).2.1
  exact ⟨root, name, hroot, rfl, hplace.standsAt_child_iff.1 htarget,
    Path.ne_dots_of_suffix part.suffix_length hname⟩

/-- The place of a file is gone exactly if the file cannot be read. -/
theorem fallen_iff {part : Part} {target : Place} (hpath : path ∈ library.files tree part)
    (htarget : tree.StandsAt path target) :
    library.Fallen tree target ↔
      (Part.entry library.settings tree path part).failure?.isSome = true := by
  constructor
  · rintro ⟨failure, hfailure, other, hother, habove⟩
    obtain ⟨part', hpath', hentry⟩ := mem_failures_iff.1 hfailure
    obtain ⟨root, name, hroot, rfl, rfl, -⟩ := exists_root hpath htarget
    obtain ⟨root', name', hroot', hpath'', rfl, -⟩ := exists_root hpath' hother
    obtain rfl := hroot.unique hroot'
    -- both files stand in directories of the same depth
    obtain ⟨hplace, rfl⟩ := Place.child_inj (Place.eq_of_isAbove habove rfl)
    obtain rfl := Part.name_injective (Place.child_inj hplace).2
    rw [hpath''] at hentry
    exact Option.isSome_iff_exists.2 ⟨failure, hentry⟩
  · intro h
    obtain ⟨failure, hentry⟩ := Option.isSome_iff_exists.1 h
    obtain rfl := failure?_entry hentry
    exact ⟨failure, mem_failures_iff.2 ⟨part, hpath, hentry⟩, target, htarget, target.isAbove_self⟩

/-- The directory of the library does not go with a file, and neither does that of a part. -/
theorem not_fallen {place : Place} (hroot : tree.Leads library.root root)
    (hdepth : place.depth ≤ root.depth + 1) :
    ¬ library.Fallen tree place := by
  rintro ⟨failure, hfailure, target, htarget, habove⟩
  obtain ⟨part, hpath, -⟩ := mem_failures_iff.1 hfailure
  obtain ⟨root', name, hroot', -, rfl, -⟩ := exists_root hpath htarget
  obtain rfl := hroot.unique hroot'
  have hbelow : root.depth + 1 + 1 ≤ place.depth := Place.depth_le_of_isAbove habove
  omega

/-- Nothing goes from a library whose directory is not there. -/
theorem not_fallen_of_missing (hmissing : ∀ root, ¬ tree.Leads library.root root) (place : Place) :
    ¬ library.Fallen tree place := by
  rintro ⟨failure, hfailure, target, htarget, -⟩
  obtain ⟨part, hpath, -⟩ := mem_failures_iff.1 hfailure
  obtain ⟨root, name, hroot, -⟩ := exists_root hpath htarget
  exact hmissing root hroot

/-- A script that cannot be read leaves the compiler as it is. -/
theorem compilerAfter_of_failure (settings : Script.Settings) (compiler : Script.Compiler)
    (h : ¬ (Entry.ofScript settings tree path).failure?.isNone = true) :
    compilerAfter settings tree compiler path = compiler := by
  unfold Entry.ofScript Script.compileFile at h
  unfold compilerAfter
  cases hfile : Script.Compiler.new.compileFile settings tree path with
  | ok used =>
    rw [hfile] at h
    exact absurd rfl h
  | error problem => rfl

/-! ## The same directory without the files that cannot be read -/

section Without

variable (hwithout : Tree.Without (library.Fallen tree) tree tree')
  (hroot : ∀ root, tree.Leads library.root root → tree'.Leads library.root root)

include hwithout hroot

theorem leads_part (part : Part) {place : Place}
    (hplace : tree.Leads (library.root.child part.name) place) :
    tree'.Leads (library.root.child part.name) place := by
  obtain ⟨root, hleads⟩ := hplace.exists_parent
  exact (hwithout.leads_child_iff (hroot root hleads) part.name_ne_dots
    (not_fallen hleads le_rfl)).2 hplace

/-- A file that can be read is read as before. -/
theorem read_without {part : Part} (hpath : path ∈ library.files tree part)
    (hread : (Part.entry library.settings tree path part).failure?.isNone = true) :
    tree'.read path = tree.read path := by
  obtain ⟨place, name, hplace, rfl, hname⟩ := Tree.exists_of_mem_list hpath
  have hkept : ¬ library.Fallen tree (place.child name) := by
    rw [fallen_iff hpath (hplace.standsAt_child_iff.2 rfl)]
    simpa using hread
  exact hwithout.read_child (leads_part hwithout hroot part hplace)
    (Path.ne_dots_of_suffix part.suffix_length hname) hkept

/-- The directory of a part is found as before. -/
theorem exists?_part (part : Part) :
    tree'.exists? (library.root.child part.name) = tree.exists? (library.root.child part.name) := by
  by_cases hleads : ∃ root, tree.Leads library.root root
  · obtain ⟨root, hleads⟩ := hleads
    exact hwithout.exists?_child_eq part.name_ne_dots hleads (hroot root hleads)
      (not_fallen hleads le_rfl)
  · exact hwithout.exists?_eq (not_fallen_of_missing fun root h => hleads ⟨root, h⟩) _

theorem findable_without (h : library.Findable tree) : library.Findable tree' where
  scripts := by
    obtain ⟨found, hfound⟩ := h.scripts
    exact ⟨found, (exists?_part hwithout hroot .scripts).trans hfound⟩
  stored := by
    obtain ⟨found, hfound⟩ := h.stored
    exact ⟨found, (exists?_part hwithout hroot .stored).trans hfound⟩

/-- The other files are listed as before. -/
theorem files_without (part : Part) :
    library.files tree' part =
      (library.files tree part).filter fun path =>
        (Part.entry library.settings tree path part).failure?.isNone := by
  refine hwithout.list_eq (fun place => leads_part hwithout hroot part)
    fun path hpath target htarget => ?_
  rw [fallen_iff hpath htarget]
  cases (Part.entry library.settings tree path part).failure? <;> simp

/-- The compiler is left as before: a script that cannot be read does not reach it. -/
theorem compilerAfter_without (compiler : Script.Compiler) :
    (library.files tree' .scripts).foldl (compilerAfter library.settings tree') compiler =
      (library.files tree .scripts).foldl (compilerAfter library.settings tree) compiler := by
  rw [files_without hwithout hroot, List.foldl_filter]
  refine List.foldl_ext _ _ compiler fun compiler path hpath => ?_
  by_cases hread : (Part.entry library.settings tree path .scripts).failure?.isNone = true
  · rw [if_pos hread]
    exact compilerAfter_congr _ _ (read_without hwithout hroot hpath hread)
  · rw [if_neg hread]
    exact (compilerAfter_of_failure _ _ hread).symm

/-- The other files give what they gave before. -/
theorem entriesIn_without (part : Part) :
    library.entriesIn tree' part = (library.entriesIn tree part).filter (·.failure?.isNone) := by
  unfold entriesIn
  rw [files_without hwithout hroot, List.filter_map]
  refine List.map_congr_left fun path hpath => ?_
  obtain ⟨hpath, hread⟩ := List.mem_filter.1 hpath
  have hbytes := read_without hwithout hroot hpath hread
  cases part with
  | scripts => exact ofScript_congr _ hbytes
  | stored =>
    unfold Part.entry Entry.ofGraph
    rw [load_congr hbytes]

end Without

end Colloquy.Library
