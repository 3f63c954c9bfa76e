import Colloquy.Files.Text
import Colloquy.Proofs.Chars.Utf8
import Colloquy.Proofs.Json.RoundTrip

/-!
# What is written into a file is read from it

A file that has been written is found at its path again, since nothing on the way to it changes: a
file never takes the place of a directory. The bytes, the text and the value read from it are
those that were written.
-/

namespace Colloquy.Files

/-- The system can be asked about a path: there is no NUL in it, and it is not too long. -/
def Path.Askable (path : Path) : Prop :=
  ¬ path.text.toList.contains '\x00' = true ∧ ¬ Tree.maxPathBytes < path.text.utf8ByteSize

namespace Tree

variable {tree tree' : Tree} {place target : Place} {item : Item}

/-! ## Places after writing -/

/-- What stands at other places stays. -/
theorem item?_put_of_ne (hne : place ≠ target) :
    (tree.put target item).item? place = tree.item? place := by
  unfold item? put
  rw [Ledger.get?_insert_of_ne _ hne]

/-- What is put at a place stands there, unless the place is a directory by nature. -/
theorem item?_put_self (hplace : tree.item? place ≠ some .directory) :
    (tree.put place item).item? place = some item := by
  have hbelow : ¬ place.isAbove tree.home := by
    intro habove
    exact hplace (by rw [item?, if_pos habove])
  unfold item? put
  rw [if_neg hbelow, Ledger.get?_insert_self]

/-- Names that lead to a place still do as long as no directory has gone. -/
theorem follow_mono
    (hkept : ∀ place, tree.item? place = some .directory → tree'.item? place = some .directory)
    {names : List String} (hfollow : tree.follow place names = .ok target) :
    tree'.follow place names = .ok target := by
  induction names generalizing place with
  | nil => exact hfollow
  | cons name names ih =>
    rw [follow] at hfollow ⊢
    cases hitem : tree.item? place with
    | none =>
      rw [hitem] at hfollow
      cases hfollow
    | some found =>
      cases found with
      | file bytes =>
        rw [hitem] at hfollow
        cases hfollow
      | directory =>
        rw [hkept place hitem]
        rw [hitem] at hfollow
        dsimp only at hfollow ⊢
        split at hfollow
        · cases hfollow
        · next hlength =>
          rw [if_neg hlength]
          exact ih hfollow

/-- No directory goes when something is put where none stands. -/
theorem directory_put (htarget : tree.item? target ≠ some .directory)
    (hplace : tree.item? place = some .directory) :
    (tree.put target item).item? place = some .directory := by
  have hne : place ≠ target := by
    rintro rfl
    exact htarget hplace
  rwa [item?_put_of_ne hne]

/-! ## Where paths lead -/

/-- Where a path starts. -/
def origin (tree : Tree) (path : Path) : Place :=
  if path.isAbsolute then .top else tree.home

/-- A path leads to a place exactly if the system can be asked about the path and its names lead
there. -/
theorem locate_eq_ok_iff {path : Path} :
    tree.locate path = .ok target ↔
      path.Askable ∧ tree.follow (tree.origin path) path.names = .ok target := by
  unfold locate Path.Askable
  by_cases hnul : path.text.toList.contains '\x00' = true
  · rw [if_pos hnul]
    exact iff_of_false (by simp) fun h => h.1.1 hnul
  by_cases hlong : maxPathBytes < path.text.utf8ByteSize
  · rw [if_neg hnul, if_pos hlong]
    exact iff_of_false (by simp) fun h => h.1.2 hlong
  rw [if_neg hnul, if_neg hlong]
  refine Iff.trans ?_ (and_iff_right ⟨hnul, hlong⟩).symm
  show Except.mapError _ (tree.follow (tree.origin path) path.names) = _ ↔ _
  cases tree.follow (tree.origin path) path.names <;> simp [Except.mapError]

theorem locate_put {path : Path} (htarget : tree.item? target ≠ some .directory)
    (hlocate : tree.locate path = .ok target) :
    (tree.put target item).locate path = .ok target := by
  obtain ⟨haskable, hfollow⟩ := locate_eq_ok_iff.1 hlocate
  exact locate_eq_ok_iff.2 ⟨haskable, follow_mono (fun _ => directory_put htarget) hfollow⟩

/-! ## Files -/

/-- Writing puts a file where its path leads, which is no directory. -/
theorem write_eq_ok {path : Path} {bytes : List UInt8}
    (hwrite : tree.write path bytes = .ok tree') :
    ∃ target, tree.locate path = .ok target ∧ tree.item? target ≠ some .directory ∧
      tree' = tree.put target (.file bytes) := by
  unfold write at hwrite
  cases hlocate : tree.locate path with
  | error failure =>
    rw [hlocate] at hwrite
    cases hwrite
  | ok target =>
    rw [hlocate] at hwrite
    refine ⟨target, rfl, ?_⟩
    cases hitem : tree.item? target with
    | none =>
      simp only [bind, Except.bind, hitem, Except.ok.injEq] at hwrite
      exact ⟨by simp, hwrite.symm⟩
    | some found =>
      cases found with
      | file old =>
        simp only [bind, Except.bind, hitem, Except.ok.injEq] at hwrite
        exact ⟨by simp, hwrite.symm⟩
      | directory =>
        simp only [bind, Except.bind, hitem] at hwrite
        cases hwrite

/-- A file can be written at a path: it leads to a place where no directory stands. -/
def Writable (tree : Tree) (path : Path) : Prop :=
  ∃ target, tree.locate path = .ok target ∧ tree.item? target ≠ some .directory

/-- Writing at a path where a file can be written succeeds. -/
theorem exists_write {path : Path} (hpath : tree.Writable path) (bytes : List UInt8) :
    ∃ written, tree.write path bytes = .ok written := by
  obtain ⟨target, hlocate, hitem⟩ := hpath
  refine ⟨tree.put target (.file bytes), ?_⟩
  unfold write
  rw [hlocate]
  simp only [bind, Except.bind]

/-- The bytes in a file are those that were written. -/
theorem read_of_write {path : Path} {bytes : List UInt8}
    (hwrite : tree.write path bytes = .ok tree') :
    tree'.read path = .ok bytes := by
  obtain ⟨target, hlocate, hitem, rfl⟩ := write_eq_ok hwrite
  unfold read
  rw [locate_put hitem hlocate]
  simp only [bind, Except.bind, item?_put_self hitem]

end Tree

/-! ## Texts and values -/

/-- Line ends are left alone where there is no carriage return. -/
theorem unifyLineEnds_of_not_mem {cs : List Char} (hcs : '\r' ∉ cs) :
    Chars.unifyLineEnds cs = cs := by
  induction cs with
  | nil => rfl
  | cons c cs ih =>
    rw [List.mem_cons, not_or] at hcs
    have hc : (c == '\r') = false := by simpa using Ne.symm hcs.1
    rw [Chars.unifyLineEnds, hc, ih hcs.2]
    · rfl
    · intro rest heq
      exact absurd heq.symm hcs.1

namespace Tree

variable {tree tree' : Tree} {path : Path}

/-- The text in a file is the one that was written, if there is no carriage return in it. -/
theorem readText_of_writeText {text : String} (hreturn : '\r' ∉ text.toList)
    (hwrite : tree.writeText path text = .ok tree') : tree'.readText path = .ok text := by
  unfold readText
  rw [read_of_write hwrite]
  simp only [Utf8.decode_encode, unifyLineEnds_of_not_mem hreturn, String.ofList_toList]

/-- The value in a file is the one that was written. -/
theorem readJson_of_writeJson {data : Json} (hfits : Json.Fits Json.maxDepth data)
    (hwrite : tree.writeJson path data = .ok tree') : tree'.readJson path = .ok data := by
  unfold readJson
  rw [readText_of_writeText (Json.return_not_mem_write hfits) hwrite]
  simp only [Json.read_write hfits]

end Tree

end Colloquy.Files
