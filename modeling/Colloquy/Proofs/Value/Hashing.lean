import Colloquy.Value.Basic
import Mathlib

/-!
# Equality and hashes of values

A set tells values apart by what enters their hash (`hashed`), and of equal hashes by equality.
Vectors are equal if their components are near one another, while their hash takes the components
as they are. So equal values have one hash exactly if their components are the same numbers
(`hashed_eq_iff`), and equality carries over from one value to the next as long as one of the two
steps keeps the numbers (`equal_trans_left`, `equal_trans_right`).

Two numbers are the same if they are compared as equal, which makes the two zeros one number.
Nothing that is done with components tells these two apart (`near_congr`).
-/

namespace Colloquy.Value

open Float.Model (UnpackedFloat Format)

/-! ## The two zeros -/

section Zeros

variable {x y z : Float}

/-- A float taken apart. -/
def parts (x : Float) : UnpackedFloat :=
  x.toModel.unpack

/-- The parts of two floats are the same but for the sign of a zero. -/
def Alike (a b : UnpackedFloat) : Prop :=
  a = b ∨ ∃ s t, a = .zero s ∧ b = .zero t

theorem lt_iff_compare (x y : Float) : x < y ↔ (parts x).compare (parts y) = some .lt := by
  show decide (x.toModel < y.toModel) = true ↔ _
  rw [decide_eq_true_iff]
  show UnpackedFloat.lt (parts x) (parts y) = true ↔ _
  rw [UnpackedFloat.lt, beq_iff_eq]

theorem sub_eq_pack (x y : Float) :
    x - y = .ofModel (.pack (UnpackedFloat.sub .binary64 (parts x) (parts y))) := rfl

theorem compare_alike {a b c d : UnpackedFloat} (h : Alike a b) (h' : Alike c d) :
    a.compare c = b.compare d := by
  obtain rfl | ⟨s, t, rfl, rfl⟩ := h <;> obtain rfl | ⟨s', t', rfl, rfl⟩ := h'
  · rfl
  · cases a with
    | infinity sign => cases sign <;> rfl
    | notANumber => rfl
    | zero => rfl
    | finite sign => cases sign <;> rfl
  · cases c with
    | infinity sign => cases sign <;> rfl
    | notANumber => rfl
    | zero => rfl
    | finite sign => cases sign <;> rfl
  · rfl

/-- The difference of two zeros is a zero, and the sign of a zero makes no difference to what is
not zero. -/
theorem sub_alike {a b c d : UnpackedFloat} (h : Alike a b) (h' : Alike c d) :
    Alike (UnpackedFloat.sub .binary64 a c) (UnpackedFloat.sub .binary64 b d) := by
  have hzeros : ∀ s t s' t' : Float.Model.UnpackedFloat.Sign,
      Alike (UnpackedFloat.sub .binary64 (.zero s) (.zero s'))
        (UnpackedFloat.sub .binary64 (.zero t) (.zero t')) := by
    intro s t s' t'
    cases s <;> cases t <;> cases s' <;> cases t' <;> exact .inr ⟨_, _, rfl, rfl⟩
  obtain rfl | ⟨s, t, rfl, rfl⟩ := h <;> obtain rfl | ⟨s', t', rfl, rfl⟩ := h'
  · exact .inl rfl
  · cases a with
    | infinity => exact .inl rfl
    | notANumber => exact .inl rfl
    | finite => exact .inl rfl
    | zero sign => exact hzeros sign sign s' t'
  · cases c with
    | infinity => exact .inl rfl
    | notANumber => exact .inl rfl
    | finite => exact .inl rfl
    | zero sign => exact hzeros s t sign sign
  · exact hzeros s t s' t'

/-- Packing keeps zeros zeros. -/
theorem parts_alike {a b : UnpackedFloat} (h : Alike a b) :
    Alike (parts (.ofModel (.pack a))) (parts (.ofModel (.pack b))) := by
  obtain rfl | ⟨s, t, rfl, rfl⟩ := h
  · exact .inl rfl
  · exact .inr ⟨s, t, UnpackedFloat.unpack_packedZero, UnpackedFloat.unpack_packedZero⟩

/-- Numbers that are compared as equal have the same parts but for the sign of a zero. -/
theorem alike_of_beq (h : (x == y) = true) : Alike (parts x) (parts y) := by
  obtain ⟨-, -, rfl | ⟨rfl, rfl⟩ | ⟨rfl, rfl⟩⟩ := Float.beq_iff_ne_nan_and_eq.1 h
  · exact .inl rfl
  · exact .inr ⟨.positive, .negative, by rfl, by rfl⟩
  · exact .inr ⟨.negative, .positive, by rfl, by rfl⟩

theorem near_congr {x' y' : Float} (hx : Alike (parts x) (parts x'))
    (hy : Alike (parts y) (parts y')) :
    near x y = near x' y' := by
  have halike : Alike (parts (x - y)) (parts (x' - y')) := parts_alike (sub_alike hx hy)
  unfold near
  congr 1 <;> rw [decide_eq_decide, lt_iff_compare, lt_iff_compare]
  · rw [compare_alike (.inl rfl) halike]
  · rw [compare_alike halike (.inl rfl)]

theorem near_congr_left (x : Float) (h : (y == z) = true) : near y x = near z x :=
  near_congr (alike_of_beq h) (.inl rfl)

theorem near_congr_right (x : Float) (h : (y == z) = true) : near x y = near x z :=
  near_congr (.inl rfl) (alike_of_beq h)

theorem parts_nan : parts .nan = .notANumber := by
  unfold parts
  exact @UnpackedFloat.unpack_packedNaN .binary64

/-- What is near something is a number. -/
theorem ne_nan_of_near (h : near x y = true) : x ≠ .nan ∧ y ≠ .nan := by
  have hdifference : x - y ≠ .nan := by
    intro hnan
    rw [near, Bool.and_eq_true, decide_eq_true_eq, lt_iff_compare, hnan, parts_nan] at h
    have hnone : (parts (-tolerance)).compare .notANumber = none := by
      cases parts (-tolerance) <;> rfl
    rw [hnone] at h
    exact absurd h.1 (by simp)
  have hpacked : Float.ofModel (.pack .notANumber) = .nan := by
    rw [← Float.toBits_inj]
    decide
  constructor
  · rintro rfl
    apply hdifference
    rw [sub_eq_pack, parts_nan]
    exact hpacked
  · rintro rfl
    apply hdifference
    rw [sub_eq_pack, parts_nan]
    have hsub : UnpackedFloat.sub .binary64 (parts x) .notANumber = .notANumber := by
      cases parts x <;> rfl
    rw [hsub]
    exact hpacked

/-- A finite number leaves zero if it is taken from itself; nothing else leaves a number. -/
theorem sub_self_eq (a : UnpackedFloat) :
    UnpackedFloat.sub .binary64 a a = if a.isFinite then .zero .positive else .notANumber := by
  cases a with
  | infinity sign => cases sign <;> rfl
  | notANumber => rfl
  | zero sign => cases sign <;> rfl
  | finite sign mantissa exponent hpos =>
    have hzero :
        ∀ m : ℤ, UnpackedFloat.normalize .binary64 (m - m) (min exponent exponent) .positive =
        .zero .positive := by
      intro m
      rw [Int.sub_self]
      rfl
    exact hzero _

/-- A number is near itself exactly if it is finite. -/
theorem near_self_iff : near x x = true ↔ x.isFinite = true := by
  have hfinite : x.isFinite = (parts x).isFinite := rfl
  rw [near, Bool.and_eq_true, decide_eq_true_eq, decide_eq_true_eq, lt_iff_compare,
    lt_iff_compare, sub_eq_pack, sub_self_eq, hfinite]
  cases (parts x).isFinite with
  | true =>
    have hzero : parts (.ofModel (.pack (.zero .positive))) = .zero .positive :=
      @UnpackedFloat.unpack_packedZero .binary64 .positive
    rw [if_pos rfl, hzero]
    exact iff_of_true ⟨by rfl, by rfl⟩ rfl
  | false =>
    have hnan : parts (.ofModel (.pack .notANumber)) = .notANumber :=
      @UnpackedFloat.unpack_packedNaN .binary64
    have hnone : ∀ a : UnpackedFloat, a.compare .notANumber = none := by
      intro a
      cases a <;> rfl
    rw [if_neg Bool.false_ne_true, hnan, hnone]
    simp

end Zeros

/-! ## What enters a hash -/

/-- A number as it enters a hash: the two zeros are one number. -/
def hashedNumber (x : Float) : Float :=
  if x == 0 then 0 else x

/-- What enters the hash of a value: its kind and its payload, number by number. -/
def hashed : Value → Value
  | .float x => .float (hashedNumber x)
  | .vec2 x y => .vec2 (hashedNumber x) (hashedNumber y)
  | .vec3 x y z => .vec3 (hashedNumber x) (hashedNumber y) (hashedNumber z)
  | v => v

/-- The components of two vectors are the same numbers. Nothing is asked of other values. -/
def sameComponents : Value → Value → Bool
  | .vec2 x y, .vec2 x' y' => x == x' && y == y'
  | .vec3 x y z, .vec3 x' y' z' => x == x' && y == y' && z == z'
  | _, _ => true

theorem zero_beq_iff {x : Float} : (x == 0) = true ↔ x = 0 ∨ x = -0 := by
  have hzero : (0 : Float) ≠ .nan := by
    rw [ne_eq, ← Float.toBits_inj]
    decide
  have hminus : (-0 : Float) ≠ .nan := by
    rw [ne_eq, ← Float.toBits_inj]
    decide
  rw [Float.beq_iff_ne_nan_and_eq]
  constructor
  · rintro ⟨-, -, hx | ⟨hx, -⟩ | ⟨hx, -⟩⟩
    · exact .inl hx
    · exact .inl hx
    · exact .inr hx
  · rintro (rfl | rfl)
    · exact ⟨hzero, hzero, .inl rfl⟩
    · exact ⟨hminus, hzero, .inr (.inr ⟨rfl, rfl⟩)⟩

/-- Numbers enter a hash alike exactly if they are compared as equal. -/
theorem hashedNumber_eq_iff {x y : Float} (hx : x ≠ .nan) (hy : y ≠ .nan) :
    hashedNumber x = hashedNumber y ↔ (x == y) = true := by
  have hsplit : (x == y) = true ↔ x = y ∨ ((x == 0) = true ∧ (y == 0) = true) := by
    rw [Float.beq_iff_ne_nan_and_eq, zero_beq_iff, zero_beq_iff]
    constructor
    · rintro ⟨-, -, h | ⟨h, h'⟩ | ⟨h, h'⟩⟩
      · exact .inl h
      · exact .inr ⟨.inl h, .inr h'⟩
      · exact .inr ⟨.inr h, .inl h'⟩
    · rintro (h | ⟨h, h'⟩)
      · exact ⟨hx, hy, .inl h⟩
      · rcases h with rfl | rfl <;> rcases h' with rfl | rfl
        · exact ⟨hx, hy, .inl rfl⟩
        · exact ⟨hx, hy, .inr (.inl ⟨rfl, rfl⟩)⟩
        · exact ⟨hx, hy, .inr (.inr ⟨rfl, rfl⟩)⟩
        · exact ⟨hx, hy, .inl rfl⟩
  rw [hsplit]
  unfold hashedNumber
  split <;> split
  · next hx0 hy0 => exact iff_of_true rfl (.inr ⟨hx0, hy0⟩)
  · next hx0 hy0 =>
    refine iff_of_false ?_ ?_
    · rintro rfl
      exact hy0 (zero_beq_iff.2 (.inl rfl))
    · rintro (rfl | ⟨-, hy0'⟩)
      · exact hy0 hx0
      · exact hy0 hy0'
  · next hx0 hy0 =>
    refine iff_of_false ?_ ?_
    · rintro rfl
      exact hx0 (zero_beq_iff.2 (.inl rfl))
    · rintro (rfl | ⟨hx0', -⟩)
      · exact hx0 hy0
      · exact hx0 hx0'
  · next hx0 _ => exact ⟨.inl, fun h => h.resolve_right fun hzeros => hx0 hzeros.1⟩

/-- Equal values have one hash exactly if their components are the same numbers. -/
theorem hashed_eq_iff {a b : Value} (h : equal a b = true) :
    hashed a = hashed b ↔ sameComponents a b = true := by
  cases a <;> cases b <;> simp only [equal, Bool.and_eq_true, beq_iff_eq, Bool.false_eq_true] at h
  case float.float x y =>
    obtain ⟨hx, hy, -⟩ := Float.beq_iff_ne_nan_and_eq.1 h
    simpa [hashed, sameComponents, hashedNumber_eq_iff hx hy] using h
  case vec2.vec2 =>
    obtain ⟨hx, hx'⟩ := ne_nan_of_near h.1
    obtain ⟨hy, hy'⟩ := ne_nan_of_near h.2
    simp [hashed, sameComponents, hashedNumber_eq_iff, *]
  case vec3.vec3 =>
    obtain ⟨hx, hx'⟩ := ne_nan_of_near h.1.1
    obtain ⟨hy, hy'⟩ := ne_nan_of_near h.1.2
    obtain ⟨hz, hz'⟩ := ne_nan_of_near h.2
    simp [hashed, sameComponents, hashedNumber_eq_iff, and_assoc, *]
  all_goals simp [hashed, sameComponents, h]

/-- A set tells equal values apart exactly by what enters their hash. -/
theorem sameKey_iff {a b : Value} (h : equal a b = true) :
    sameKey a b = true ↔ sameComponents a b = true := by
  cases a <;> cases b <;> simp_all [sameKey, sameComponents, equal]

/-! ## Equality from one value to the next -/

section Transitive

variable {a b c : Value}

/-- Equality carries over if the first two values have the same components. -/
theorem equal_trans_left (hab : equal a b = true) (hsame : sameComponents a b = true)
    (hbc : equal b c = true) : equal a c = true := by
  cases a <;> cases b <;> simp only [equal, Bool.false_eq_true] at hab
  all_goals cases c <;> simp only [equal, Bool.false_eq_true] at hbc ⊢
  case vec2.vec2.vec2 =>
    simp only [sameComponents, Bool.and_eq_true] at hsame
    rwa [near_congr_left _ hsame.1, near_congr_left _ hsame.2]
  case vec3.vec3.vec3 =>
    simp only [sameComponents, Bool.and_eq_true] at hsame
    rwa [near_congr_left _ hsame.1.1, near_congr_left _ hsame.1.2, near_congr_left _ hsame.2]
  case float.float.float => exact PartialEquivBEq.trans hab hbc
  all_goals simp_all

/-- Equality carries over if the last two values have the same components. -/
theorem equal_trans_right (hab : equal a b = true) (hsame : sameComponents b c = true)
    (hbc : equal b c = true) : equal a c = true := by
  cases a <;> cases b <;> simp only [equal, Bool.false_eq_true] at hab
  all_goals cases c <;> simp only [equal, Bool.false_eq_true] at hbc ⊢
  case vec2.vec2.vec2 =>
    simp only [sameComponents, Bool.and_eq_true] at hsame
    rwa [← near_congr_right _ hsame.1, ← near_congr_right _ hsame.2]
  case vec3.vec3.vec3 =>
    simp only [sameComponents, Bool.and_eq_true] at hsame
    rwa [← near_congr_right _ hsame.1.1, ← near_congr_right _ hsame.1.2,
      ← near_congr_right _ hsame.2]
  case float.float.float => exact PartialEquivBEq.trans hab hbc
  all_goals simp_all

theorem sameComponents_trans (hab : equal a b = true) (hsame : sameComponents a b = true)
    (hbc : equal b c = true) (hsame' : sameComponents b c = true) : sameComponents a c = true := by
  cases a <;> cases b <;> simp only [equal, Bool.false_eq_true] at hab
  all_goals cases c <;> simp only [equal, Bool.false_eq_true] at hbc
  case vec2.vec2.vec2 =>
    simp only [sameComponents, Bool.and_eq_true] at hsame hsame' ⊢
    exact ⟨PartialEquivBEq.trans hsame.1 hsame'.1, PartialEquivBEq.trans hsame.2 hsame'.2⟩
  case vec3.vec3.vec3 =>
    simp only [sameComponents, Bool.and_eq_true] at hsame hsame' ⊢
    exact ⟨⟨PartialEquivBEq.trans hsame.1.1 hsame'.1.1, PartialEquivBEq.trans hsame.1.2 hsame'.1.2⟩,
      PartialEquivBEq.trans hsame.2 hsame'.2⟩
  all_goals rfl

end Transitive

/-! ## Sets -/

/-- A value is left out of a set since an element has its key and equals it. -/
def Covers (element value : Value) : Prop :=
  equal element value = true ∧ sameComponents element value = true

theorem covers_iff (element value : Value) :
    (sameKey element value && equal element value) = true ↔ Covers element value := by
  rw [Bool.and_eq_true, Covers]
  constructor
  · exact fun h => ⟨h.2, (sameKey_iff h.2).1 h.1⟩
  · exact fun h => ⟨(sameKey_iff h.1).2 h.2, h.1⟩

/-- One step of filling a set. -/
def putIn (kept : List Value) (value : Value) : List Value :=
  if kept.any fun element =>
    sameKey element value && equal element value then kept else kept ++ [value]

theorem putIn_of_covered {kept : List Value} {element value : Value} (hmem : element ∈ kept)
    (h : Covers element value) : putIn kept value = kept :=
  if_pos (List.any_eq_true.2 ⟨element, hmem, (covers_iff element value).2 h⟩)

/-- A set that is filled keeps what it has, and what is put in is there or is covered by an
element. -/
theorem exists_of_mem_foldl_putIn {values : List Value} (kept : List Value) :
    kept ⊆ values.foldl putIn kept ∧
      ∀ a ∈ values, ∃ element ∈ values.foldl putIn kept, element = a ∨ Covers element a := by
  induction values generalizing kept with
  | nil => simp
  | cons value values ih =>
    obtain ⟨hkept, hlater⟩ := ih (putIn kept value)
    have hstep : kept ⊆ putIn kept value := by
      unfold putIn
      split
      · exact fun _ h => h
      · exact List.subset_append_left _ _
    have hvalue : ∃ element ∈ putIn kept value, element = value ∨ Covers element value := by
      unfold putIn
      split
      · next hany =>
        obtain ⟨element, hmem, hcovers⟩ := List.any_eq_true.1 hany
        exact ⟨element, hmem, .inr ((covers_iff element value).1 hcovers)⟩
      · exact ⟨value, List.mem_append_right _ List.mem_cons_self, .inl rfl⟩
    refine ⟨fun _ h => hkept (hstep h), ?_⟩
    intro a ha
    rcases List.mem_cons.1 ha with rfl | ha
    · obtain ⟨element, hmem, h⟩ := hvalue
      exact ⟨element, hkept hmem, h⟩
    · exact hlater a ha

/-- A value adds nothing to a set into which a value has been put that covers it. -/
theorem countDistinct_append_of_covered {values : List Value} {a b : Value} (ha : a ∈ values)
    (h : Covers a b) :
    countDistinct (values ++ [b]) = countDistinct values := by
  obtain ⟨element, hmem, hcase⟩ := (exists_of_mem_foldl_putIn []).2 a ha
  have hcovers : Covers element b := by
    rcases hcase with rfl | helement
    · exact h
    · exact ⟨equal_trans_left helement.1 helement.2 h.1,
        sameComponents_trans helement.1 helement.2 h.1 h.2⟩
  have hputIn : (values ++ [b]).foldl putIn [] = values.foldl putIn [] := by
    rw [List.foldl_append, List.foldl_cons, List.foldl_nil, putIn_of_covered hmem hcovers]
  exact congrArg List.length hputIn

/-! ## The whole of it -/

/-- Equal values whose components are the same numbers have one hash and are one element of a set,
and what the one is equal to the other is equal to. Vectors with other components have two hashes,
also if they are equal. -/
theorem equal_same_hash {a b : Value} (h : equal a b = true) :
    (hashed a = hashed b ↔ sameComponents a b = true) ∧
      (sameComponents a b = true → ∀ c, (equal b c = true → equal a c = true) ∧
        (equal c a = true → equal c b = true)) ∧
      (sameComponents a b = true → ∀ values, a ∈ values →
        countDistinct (values ++ [b]) = countDistinct values) :=
  ⟨hashed_eq_iff h,
    fun hsame _ => ⟨equal_trans_left h hsame, fun hca => equal_trans_right hca hsame h⟩,
    fun hsame _ ha => countDistinct_append_of_covered ha ⟨h, hsame⟩⟩

/-- The two zeros are one number: the vectors made of them are equal and have one hash. -/
theorem equal_same_hash_zeros :
    equal (.vec2 0 5) (.vec2 (-0) 5) = true ∧ hashed (.vec2 0 5) = hashed (.vec2 (-0) 5) ∧
      countDistinct ([.vec2 0 5] ++ [.vec2 (-0) 5]) = 1 := by
  have hequal : equal (.vec2 0 5) (.vec2 (-0) 5) = true := by decide +kernel
  have hsame : sameComponents (.vec2 0 5) (.vec2 (-0) 5) = true := by decide +kernel
  obtain ⟨hhash, -, hset⟩ := equal_same_hash hequal
  refine ⟨hequal, hhash.2 hsame, ?_⟩
  rw [hset hsame [.vec2 0 5] List.mem_cons_self]
  decide +kernel

/-- A vector and one a tenth of the tolerance away are equal and have two hashes, so that they are
two elements of a set; and of three vectors less than the tolerance apart the first does not equal
the last. -/
theorem equal_other_hash :
    (equal (.vec2 0 0) (.vec2 (.ofScientific 1 true 7) 0) = true ∧
      hashed (.vec2 0 0) ≠ hashed (.vec2 (.ofScientific 1 true 7) 0) ∧
      countDistinct [.vec2 0 0, .vec2 (.ofScientific 1 true 7) 0] = 2) ∧
    (equal (.vec2 0 0) (.vec2 (.ofScientific 7 true 7) 0) = true ∧
      equal (.vec2 (.ofScientific 7 true 7) 0) (.vec2 (.ofScientific 14 true 7) 0) = true ∧
      equal (.vec2 0 0) (.vec2 (.ofScientific 14 true 7) 0) = false) := by
  have hnear : equal (.vec2 0 0) (.vec2 (.ofScientific 1 true 7) 0) = true := by decide +kernel
  refine ⟨⟨hnear, ?_, by decide +kernel⟩, by decide +kernel, by decide +kernel, by decide +kernel⟩
  rw [ne_eq, hashed_eq_iff hnear]
  decide +kernel

end Colloquy.Value
