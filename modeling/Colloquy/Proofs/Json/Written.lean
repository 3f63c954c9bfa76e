import Colloquy.Proofs.Json.Leaves

/-!
# Written values

Which values are written without a loss, and what their texts look like: how they begin, and which
characters stand in them.
-/

namespace Colloquy.Json

/-! ## Values that fit -/

mutual

/-- A value that nests at most `levels` deep and holds what can be written and read without a
loss. -/
def Fits : Nat → Json → Prop
  | _, .null => True
  | _, .bool _ => True
  | _, .int i => (Decimal.natText i.natAbs).length ≤ Decimal.maxDigits
  | _, .float _ => False
  | _, .text _ => True
  | 0, .array _ => False
  | levels + 1, .array items => FitsItems levels items
  | 0, .object _ => False
  | levels + 1, .object entries => (Entries.keys entries).Nodup ∧ FitsEntries levels entries

/-- Items that fit. -/
def FitsItems : Nat → List Json → Prop
  | _, [] => True
  | levels, item :: items => Fits levels item ∧ FitsItems levels items

/-- Entries whose values fit. -/
def FitsEntries : Nat → List (String × Json) → Prop
  | _, [] => True
  | levels, (_, value) :: entries => Fits levels value ∧ FitsEntries levels entries

end

/-! ## First characters -/

/-- An integer starts with a digit, or with a minus sign and a digit. -/
theorem intText_head (i : Int) : ∃ c cs, isNumeral c ∧
    ((Decimal.intText i).toList = c :: cs ∨ (Decimal.intText i).toList = '-' :: c :: cs) := by
  cases htext : Decimal.natText i.natAbs with
  | nil => exact absurd htext Nat.toDigits_ne_nil
  | cons c cs =>
    refine ⟨c, cs, isNumeral_of_mem_natText c (htext ▸ List.mem_cons_self ..), ?_⟩
    unfold Decimal.intText
    rw [String.toList_ofList, htext]
    split
    · exact .inr rfl
    · exact .inl rfl

theorem ne_of_isNumeral {c d : Char} (hc : isNumeral c) (hd : isNumeral d = false) : d ≠ c := by
  rintro rfl
  rw [hc] at hd
  cases hd

theorem isSpace_of_isNumeral {c : Char} (hc : isNumeral c) : isSpace c = false := by
  cases hspace : isSpace c with
  | false => rfl
  | true =>
    simp only [isSpace, Bool.or_eq_true, beq_iff_eq] at hspace
    rcases hspace with ((rfl | rfl) | rfl) | rfl <;> exact absurd hc (by decide)

/-- A written value starts with no space, no closing bracket and no mark of the byte order. -/
theorem writeAt_head {levels : Nat} {data : Json} (hfits : Fits levels data) (depth : Nat) :
    ∃ c cs, writeAt depth data = c :: cs ∧ isSpace c = false ∧ c ≠ ']' ∧ c ≠ '\ufeff' := by
  cases data with
  | null => exact ⟨'n', _, rfl, rfl, by decide, by decide⟩
  | bool value =>
    cases value with
    | true => exact ⟨'t', _, rfl, rfl, by decide, by decide⟩
    | false => exact ⟨'f', _, rfl, rfl, by decide, by decide⟩
  | int i =>
    obtain ⟨c, cs, hc, htext | htext⟩ := intText_head i
    · exact ⟨c, cs, htext, isSpace_of_isNumeral hc, (ne_of_isNumeral hc rfl).symm,
        (ne_of_isNumeral hc rfl).symm⟩
    · exact ⟨'-', c :: cs, htext, rfl, by decide, by decide⟩
  | float x => exact absurd hfits (by simp [Fits])
  | text s => exact ⟨'"', _, rfl, rfl, by decide, by decide⟩
  | array items =>
    cases items with
    | nil => exact ⟨'[', _, rfl, rfl, by decide, by decide⟩
    | cons item items =>
      rw [writeAt]
      exact ⟨'[', _, rfl, rfl, by decide, by decide⟩
  | object entries =>
    cases entries with
    | nil => exact ⟨'\x7b', _, rfl, rfl, by decide, by decide⟩
    | cons entry entries =>
      rw [writeAt]
      exact ⟨'\x7b', _, rfl, rfl, by decide, by decide⟩

/-! ## Control characters -/

/-- Some characters without control characters, apart from line ends. -/
def Tame (cs : List Char) : Prop :=
  ∀ c ∈ cs, c = '\n' ∨ 0x20 ≤ c.toNat

@[simp] theorem tame_append {cs ds : List Char} : Tame (cs ++ ds) ↔ Tame cs ∧ Tame ds :=
  List.forall_mem_append

@[simp] theorem tame_cons {c : Char} {cs : List Char} :
    Tame (c :: cs) ↔ (c = '\n' ∨ 0x20 ≤ c.toNat) ∧ Tame cs :=
  List.forall_mem_cons

@[simp] theorem tame_nil : Tame [] := by
  simp [Tame]

@[simp] theorem tame_newLine (depth : Nat) : Tame (newLine depth) := by
  intro c hc
  rcases List.mem_cons.mp hc with rfl | hc
  · exact .inl rfl
  · rw [List.eq_of_mem_replicate hc]
    decide

theorem tame_hexDigits (width n : Nat) : Tame (Chars.hexDigits width n) := by
  have hall : ∀ d < 16, 0x20 ≤ (Nat.digitChar d).toNat := by decide
  induction width generalizing n with
  | zero => simp [Chars.hexDigits]
  | succ width ih =>
    rw [Chars.hexDigits, tame_append]
    refine ⟨ih _, ?_⟩
    rw [tame_cons]
    exact ⟨.inr (hall _ (Nat.mod_lt _ (by omega))), tame_nil⟩

theorem tame_escapeChar (c : Char) : Tame (escapeChar c) := by
  rcases escapeChar_cases c with ⟨letter, hwritten, -, hread⟩ | ⟨hwritten, -⟩ |
    ⟨hwritten, -, -, hplain⟩
  · have hletter : 0x20 ≤ letter.toNat := by
      unfold simpleEscape? at hread
      split at hread <;> first | decide | cases hread
    rw [hwritten]
    simp only [tame_cons, tame_nil, and_true]
    exact ⟨.inr (by decide), .inr hletter⟩
  · rw [hwritten]
    simp only [tame_cons]
    exact ⟨.inr (by decide), .inr (by decide), tame_hexDigits 4 _⟩
  · rw [hwritten]
    simp only [tame_cons, tame_nil, and_true]
    exact .inr (by omega)

@[simp] theorem tame_writeText (s : String) : Tame (writeText s) := by
  have hinside : Tame (s.toList.flatMap escapeChar) := by
    intro c hc
    obtain ⟨d, -, hd⟩ := List.mem_flatMap.mp hc
    exact tame_escapeChar d c hd
  rw [writeText]
  simp only [List.cons_append, tame_cons, tame_append, tame_nil, and_true]
  exact ⟨.inr (by decide), hinside, .inr (by decide)⟩

theorem tame_intText (i : Int) : Tame (Decimal.intText i).toList := by
  have hdigits : Tame (Decimal.natText i.natAbs) := by
    intro c hc
    have hnumeral := isNumeral_of_mem_natText c hc
    simp only [isNumeral, Bool.and_eq_true, decide_eq_true_eq, Char.le_def] at hnumeral
    have hzero : '0'.val.toNat ≤ c.val.toNat := hnumeral.1
    exact .inr (Nat.le_trans (by decide) hzero)
  unfold Decimal.intText
  rw [String.toList_ofList]
  split
  · rw [tame_cons]
    exact ⟨.inr (by decide), hdigits⟩
  · exact hdigits

mutual

/-- What is written holds no control characters but line ends: all others are escaped. -/
theorem tame_writeAt : ∀ (data : Json) (depth levels : Nat), Fits levels data →
    Tame (writeAt depth data)
  | .null, _, _, _ => by simp [writeAt, Tame]
  | .bool true, _, _, _ => by simp [writeAt, Tame]
  | .bool false, _, _, _ => by simp [writeAt, Tame]
  | .int i, _, _, _ => tame_intText i
  | .float _, _, _, hfits => absurd hfits (by simp [Fits])
  | .text s, _, _, _ => tame_writeText s
  | .array [], _, _, _ => by simp [writeAt]
  | .array (item :: items), depth, levels, hfits => by
    cases levels with
    | zero => simp [Fits] at hfits
    | succ levels =>
      simp only [Fits, FitsItems] at hfits
      have hitem := tame_writeAt item (depth + 1) levels hfits.1
      have hitems := tame_writeItems items (depth + 1) levels hfits.2
      simp [writeAt, hitem, hitems]
  | .object [], _, _, _ => by simp [writeAt]
  | .object ((name, value) :: entries), depth, levels, hfits => by
    cases levels with
    | zero => simp [Fits] at hfits
    | succ levels =>
      simp only [Fits, FitsEntries] at hfits
      have hvalue := tame_writeAt value (depth + 1) levels hfits.2.1
      have hentries := tame_writeEntries entries (depth + 1) levels hfits.2.2
      simp [writeAt, hvalue, hentries]

theorem tame_writeItems : ∀ (items : List Json) (depth levels : Nat), FitsItems levels items →
    Tame (writeItems depth items)
  | [], _, _, _ => by simp [writeItems]
  | item :: items, depth, levels, hfits => by
    have hitem := tame_writeAt item depth levels hfits.1
    have hitems := tame_writeItems items depth levels hfits.2
    simp [writeItems, hitem, hitems]

theorem tame_writeEntries : ∀ (entries : List (String × Json)) (depth levels : Nat),
    FitsEntries levels entries → Tame (writeEntries depth entries)
  | [], _, _, _ => by simp [writeEntries]
  | (_, value) :: entries, depth, levels, hfits => by
    have hvalue := tame_writeAt value depth levels hfits.1
    have hentries := tame_writeEntries entries depth levels hfits.2
    simp [writeEntries, hvalue, hentries]

end

/-- No carriage return stands in a written text. -/
theorem return_not_mem_write {data : Json} (hfits : Fits maxDepth data) :
    '\r' ∉ data.write.toList := by
  rw [write, String.toList_ofList]
  intro hmem
  rcases tame_writeAt data 0 maxDepth hfits _ hmem with h | h
  · cases h
  · exact absurd h (by decide)

end Colloquy.Json
