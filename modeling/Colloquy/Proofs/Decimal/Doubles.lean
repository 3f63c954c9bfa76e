import Colloquy.Decimal.Read
import Colloquy.Proofs.Decimal.Rounding
import Mathlib

/-!
# Doubles and their bits

A finite double is given by its sign and by the place of its magnitude among the doubles
(`eq_ofBits_place`), which its bits tell in one of two ways (`fields_of_view`), and a decimal
number is read as the double whose place is nearest to its value (`exists_nearest_toFloat`). A
double is finite in the sense of its parts exactly if it is neither infinite nor what is not a
number.
-/

namespace Colloquy.Binary

open Float.Model.UnpackedFloat

/-! ## Fields -/

theorem toNat_unpackExponent (b : BitVec Float.Model.Format.binary64.numBits) :
    (unpackExponent b).toNat = b.toNat / twoTo 52 % 2048 := by
  rw [unpackExponent_def, BitVec.extractLsb'_toNat, Nat.shiftRight_eq_div_pow]
  rfl

theorem toNat_unpackMantissa (b : BitVec Float.Model.Format.binary64.numBits) :
    (unpackMantissa b).toNat = b.toNat % twoTo 52 := by
  rw [unpackMantissa_def, BitVec.extractLsb'_toNat, Nat.shiftRight_zero]
  rfl

theorem unpackExponent_eq_iff (b : BitVec Float.Model.Format.binary64.numBits) :
    unpackExponent b = -1#_ ↔ b.toNat / twoTo 52 % 2048 = 2047 := by
  rw [← BitVec.toNat_inj, toNat_unpackExponent]
  rfl

theorem unpackMantissa_eq_iff (b : BitVec Float.Model.Format.binary64.numBits) :
    unpackMantissa b = 0#_ ↔ b.toNat % twoTo 52 = 0 := by
  rw [← BitVec.toNat_inj, toNat_unpackMantissa]
  rfl

/-! ## The bits of a double -/

/-- Bits up to those of infinity, with or without the sign, are not those of what is not a
number. -/
theorem isNaNBits_ofNat {n bits : ℕ} (h : bits ≤ infinityBits)
    (hn : n = twoTo 63 + bits ∨ n = bits) :
    @isNaNBits Float.Model.Format.binary64 (UInt64.ofNat n).toBitVec = false := by
  have hsmall : twoTo 52 = 4503599627370496 := by decide
  have hlarge : twoTo 63 = 9223372036854775808 := by decide
  have hinfinity : infinityBits = 9218868437227405312 := by decide
  have hword : (UInt64.ofNat n).toBitVec.toNat = n := by
    rw [UInt64.toNat_toBitVec, UInt64.toNat_ofNat']
    exact Nat.mod_eq_of_lt (by omega)
  rw [isNaNBits, decide_eq_false_iff_not, unpackExponent_eq_iff, ne_eq, unpackMantissa_eq_iff,
    hword, hsmall]
  omega

/-- Bits up to those of infinity are kept. -/
theorem toBits_ofBits (negative : Bool) {bits : ℕ} (h : bits ≤ infinityBits) :
    (ofBits negative bits).toBits.toNat = if negative then twoTo 63 + bits else bits := by
  have hlarge : twoTo 63 = 9223372036854775808 := by decide
  have hinfinity : infinityBits = 9218868437227405312 := by decide
  rw [ofBits]
  generalize hn : (if negative then twoTo 63 + bits else bits) = n
  have hcases : n = twoTo 63 + bits ∨ n = bits := by
    cases negative
    · exact .inr hn.symm
    · exact .inl hn.symm
  have hpack : (Float.ofBits (UInt64.ofNat n)).toBits.toBitVec =
      (unpack Float.Model.Format.binary64 (UInt64.ofNat n).toBitVec).pack
        Float.Model.Format.binary64 := rfl
  rw [pack_unpack _, isNaNBits_ofNat h hcases] at hpack
  rw [← UInt64.toNat_toBitVec, hpack]
  simp only [Bool.false_eq_true, if_false, UInt64.toNat_toBitVec, UInt64.toNat_ofNat']
  exact Nat.mod_eq_of_lt (by omega)

/-- The exponent as the bits of a double have it, counted from zero. -/
def exponentField (x : Float) : ℕ :=
  x.toBits.toNat / twoTo 52 % 2048

/-- The digits that the bits of a double have. -/
def fractionField (x : Float) : ℕ :=
  x.toBits.toNat % twoTo 52

/-- The parts of a finite double in terms of its bits: the leading digit is not written, unless
the exponent is the smallest one. -/
theorem fields_of_view {x : Float} {negative : Bool} {m : ℕ} {e : ℤ}
    (h : view x = .finite negative m e) :
    exponentField x ≠ 2047 ∧ (negative = true ↔ twoTo 63 ≤ x.toBits.toNat) ∧
      ((exponentField x = 0 ∧ m = fractionField x ∧ e = minExponent) ∨
        (exponentField x ≠ 0 ∧ m = twoTo 52 + fractionField x ∧
          e = (exponentField x : ℤ) - 1075)) := by
  unfold view at h
  simp only [beq_iff_eq] at h
  split at h
  · split at h <;> cases h
  · next hlast =>
    split at h
    · next hzero =>
      cases h
      exact ⟨hlast, by rw [decide_eq_true_iff], .inl ⟨hzero, rfl, rfl⟩⟩
    · next hsome =>
      cases h
      exact ⟨hlast, by rw [decide_eq_true_iff], .inr ⟨hsome, rfl, rfl⟩⟩

/-- A finite double has the place of its parts. -/
theorem eq_ofBits_place {x : Float} {negative : Bool} {m : ℕ} {e : ℤ}
    (h : view x = .finite negative m e) : x = ofBits negative (place m e) := by
  obtain ⟨-, hnegative, hfields⟩ := fields_of_view h
  have hplace : place m e = exponentField x * twoTo 52 + fractionField x := by
    obtain ⟨hzero, rfl, rfl⟩ | ⟨hsome, rfl, rfl⟩ := hfields
    · rw [place, hzero, Int.sub_self]
      rfl
    · have hexponent :
          ((exponentField x : ℤ) - 1075 - minExponent).toNat + 1 = exponentField x := by
        unfold minExponent
        omega
      rw [place, ← Nat.add_assoc, ← Nat.succ_mul, Nat.succ_eq_add_one, hexponent]
  have hsign : twoTo 63 = 2048 * twoTo 52 := by decide
  have hlt : x.toBits.toNat < 4096 * twoTo 52 := x.toBits.toNat_lt
  have hbits : x.toBits.toNat = if negative then twoTo 63 + place m e else place m e := by
    rw [hplace, exponentField, fractionField]
    have hsplit := Nat.div_add_mod' x.toBits.toNat (twoTo 52)
    rw [hsign, ← Nat.le_div_iff_mul_le (twoTo_pos 52)] at hnegative
    rw [← Nat.div_lt_iff_lt_mul (twoTo_pos 52)] at hlt
    cases negative with
    | true =>
      have hhigh := hnegative.1 rfl
      have hfield : x.toBits.toNat / twoTo 52 = 2048 + x.toBits.toNat / twoTo 52 % 2048 := by omega
      rw [if_pos rfl, hsign, ← Nat.add_assoc, ← Nat.add_mul, ← hfield, hsplit]
    | false =>
      have hlow : x.toBits.toNat / twoTo 52 < 2048 :=
        Nat.not_le.1 (hnegative.not.1 Bool.false_ne_true)
      rw [if_neg Bool.false_ne_true, Nat.mod_eq_of_lt hlow, hsplit]
  rw [ofBits, ← hbits, UInt64.ofNat_toNat, Float.ofBits_toBits]

/-- The parts of a finite double are those of a double. -/
theorem canonical_of_view {x : Float} {negative : Bool} {m : ℕ} {e : ℤ}
    (h : view x = .finite negative m e) (hm : m ≠ 0) : Canonical m e := by
  have hdouble : twoTo 53 = 2 * twoTo 52 := twoTo_succ 52
  have hfraction : fractionField x < twoTo 52 := Nat.mod_lt _ (twoTo_pos 52)
  have hexponent : exponentField x < 2048 := Nat.mod_lt _ (by decide)
  have hleast : minExponent = -1074 := rfl
  obtain ⟨hlast, -, ⟨-, rfl, rfl⟩ | ⟨hsome, rfl, rfl⟩⟩ := fields_of_view h
  · exact ⟨by omega, by omega, le_rfl, by decide, fun hlt => absurd hlt (lt_irrefl _)⟩
  · exact ⟨by omega, by omega, by omega, by omega, fun _ => Nat.le_add_right _ _⟩

/-- Zero has the smallest exponent. -/
theorem exponent_of_view_zero {x : Float} {negative : Bool} {e : ℤ}
    (h : view x = .finite negative 0 e) : e = minExponent := by
  have hpos := twoTo_pos 52
  obtain ⟨-, -, ⟨-, -, he⟩ | ⟨-, hm, -⟩⟩ := fields_of_view h
  · exact he
  · omega

theorem exists_of_isFinite {x : Float} (h : isFinite x = true) :
    ∃ negative m e, view x = .finite negative m e := by
  unfold isFinite at h
  split at h
  · next negative m e heq => exact ⟨negative, m, e, heq⟩
  · cases h

/-- A double that is finite in its parts is neither infinite nor what is not a number. -/
theorem not_special_of_isFinite {x : Float} (h : isFinite x = true) :
    x.isNaN = false ∧ x.isInf = false := by
  obtain ⟨negative, m, e, hview⟩ := exists_of_isFinite h
  have hfield : ¬ @unpackExponent Float.Model.Format.binary64 x.toBits.toBitVec = -1#_ := by
    rw [unpackExponent_eq_iff]
    exact (fields_of_view hview).1
  have hunpack : (unpack Float.Model.Format.binary64 x.toBits.toBitVec).isNaN = false ∧
      (unpack Float.Model.Format.binary64 x.toBits.toBitVec).isInf = false := by
    unfold unpack
    simp only [hfield, if_false]
    split
    · split <;> exact ⟨rfl, rfl⟩
    · exact ⟨rfl, rfl⟩
  exact hunpack

end Colloquy.Binary

namespace Colloquy.Decimal

open Binary

/-! ## Decimal numbers -/

theorem cast_tenTo (n : ℕ) : (tenTo n : ℚ) = 10 ^ (n : ℤ) := by
  rw [zpow_natCast]
  exact Nat.cast_pow 10 n

theorem tenTo_pos (n : ℕ) : 0 < tenTo n :=
  Nat.pow_pos (by decide)

theorem cast_tenTo_toNat {e : ℤ} (h : 0 ≤ e) : (tenTo e.toNat : ℚ) = 10 ^ e := by
  rw [cast_tenTo, Int.toNat_of_nonneg h]

theorem ten_zpow_pos (e : ℤ) : (0 : ℚ) < 10 ^ e :=
  zpow_pos (by norm_num) e

theorem ten_zpow_le {e d : ℤ} (h : e ≤ d) : (10 : ℚ) ^ e ≤ 10 ^ d :=
  zpow_le_zpow_right₀ (by norm_num) h

theorem ten_zpow_add (e d : ℤ) : (10 : ℚ) ^ (e + d) = 10 ^ e * 10 ^ d :=
  zpow_add₀ (by norm_num) e d

theorem two_zpow_le_ten_zpow {e : ℤ} (h : 0 ≤ e) : (2 : ℚ) ^ e ≤ 10 ^ e :=
  zpow_le_zpow_left₀ h (by norm_num) (by norm_num)

theorem twoTo_le_tenTo_range : twoTo 1024 ≤ tenTo 400 ∧ twoTo 1075 ≤ tenTo 400 := by
  decide +kernel

/-- From the four hundredth power of ten on, a decimal number is beyond the doubles. -/
theorem two_zpow_le_of_large {m : ℕ} (hm : m ≠ 0) {e : ℤ} (he : 400 < e) :
    (2 : ℚ) ^ (1024 : ℤ) ≤ m * 10 ^ e := by
  have hone : (1 : ℚ) ≤ m := by exact_mod_cast Nat.one_le_iff_ne_zero.2 hm
  calc
    (2 : ℚ) ^ (1024 : ℤ) = twoTo 1024 := (cast_twoTo 1024).symm
    _ ≤ tenTo 400 := by exact_mod_cast twoTo_le_tenTo_range.1
    _ = 10 ^ (400 : ℤ) := cast_tenTo 400
    _ ≤ 10 ^ e := ten_zpow_le he.le
    _ ≤ m * 10 ^ e := le_mul_of_one_le_left (ten_zpow_pos e).le hone

/-- A decimal number whose digits all stand below the four hundredth place after the point is
nearer to zero than to the smallest double. -/
theorem lt_two_zpow_of_small {m : ℕ} {e : ℤ} (he : e < -400 - (m.log2 + 1 : ℕ)) :
    (m : ℚ) * 10 ^ e < 2 ^ (-1075 : ℤ) := by
  have hdigits : (m : ℚ) < 10 ^ ((m.log2 + 1 : ℕ) : ℤ) := by
    calc
      (m : ℚ) < (twoTo (m.log2 + 1) : ℚ) := by exact_mod_cast lt_twoTo_log2 m
      _ = 2 ^ ((m.log2 + 1 : ℕ) : ℤ) := cast_twoTo _
      _ ≤ 10 ^ ((m.log2 + 1 : ℕ) : ℤ) := two_zpow_le_ten_zpow (Int.natCast_nonneg _)
  have hleast : (10 : ℚ) ^ (-400 : ℤ) ≤ 2 ^ (-1075 : ℤ) := by
    rw [zpow_neg, zpow_neg]
    refine inv_anti₀ (two_zpow_pos _) ?_
    calc
      (2 : ℚ) ^ (1075 : ℤ) = twoTo 1075 := (cast_twoTo 1075).symm
      _ ≤ tenTo 400 := by exact_mod_cast twoTo_le_tenTo_range.2
      _ = 10 ^ (400 : ℤ) := cast_tenTo 400
  calc
    (m : ℚ) * 10 ^ e < 10 ^ ((m.log2 + 1 : ℕ) : ℤ) * 10 ^ e :=
      mul_lt_mul_of_pos_right hdigits (ten_zpow_pos e)
    _ = 10 ^ (((m.log2 + 1 : ℕ) : ℤ) + e) := (ten_zpow_add _ _).symm
    _ ≤ 10 ^ (-400 : ℤ) := ten_zpow_le (by omega)
    _ ≤ 2 ^ (-1075 : ℤ) := hleast

/-- Every positive number is next to a double. -/
theorem exists_nearest {v : ℚ} (hv : 0 < v) : ∃ bits, Nearest v bits := by
  have hnum : v.num.natAbs ≠ 0 := Int.natAbs_ne_zero.2 (Rat.num_pos.2 hv).ne'
  have heq : ((v.num.natAbs : ℕ) : ℚ) / v.den = v := by
    have hsign : ((v.num.natAbs : ℕ) : ℤ) = v.num := Int.natAbs_of_nonneg (Rat.num_pos.2 hv).le
    rw [← Int.cast_natCast, hsign]
    exact Rat.num_div_den v
  have hnearest := nearest_nearestBits hnum v.den_nz
  rw [heq] at hnearest
  exact ⟨_, hnearest⟩

/-- A decimal number other than zero is read as the double next to its value. -/
theorem exists_nearest_toFloat {m : ℕ} (hm : m ≠ 0) (e : ℤ) :
    ∃ bits, Nearest (m * 10 ^ e) bits ∧ ∀ negative,
      toFloat negative m e = ofBits negative bits := by
  have hpos : (0 : ℚ) < m * 10 ^ e :=
    mul_pos (by exact_mod_cast Nat.pos_of_ne_zero hm) (ten_zpow_pos e)
  obtain ⟨bits, hbits⟩ := exists_nearest hpos
  refine ⟨bits, hbits, fun negative => congrArg (ofBits negative) ?_⟩
  rw [if_neg (by simpa using hm)]
  split
  · next hlarge => exact (nearest_infinityBits (two_zpow_le_of_large hm hlarge) hbits).symm
  split
  · next hsmall => exact (nearest_zero (lt_two_zpow_of_small hsmall) hbits).symm
  split
  · next hsign =>
    have hproduct : m * tenTo e.toNat ≠ 0 := Nat.mul_ne_zero hm (tenTo_pos _).ne'
    have hnearest := nearest_nearestBits hproduct one_ne_zero
    rw [Nat.cast_mul, cast_tenTo_toNat hsign, Nat.cast_one, div_one] at hnearest
    exact hnearest.unique hbits
  · next hsign =>
    have hnearest := nearest_nearestBits hm (tenTo_pos (-e).toNat).ne'
    rw [cast_tenTo_toNat (by omega), zpow_neg, div_inv_eq_mul] at hnearest
    exact hnearest.unique hbits

/-- A decimal number is read as the double whose place is nearest to its value. -/
theorem toFloat_eq_of_nearest {m : ℕ} (hm : m ≠ 0) {e : ℤ} {bits : ℕ}
    (h : Nearest (m * 10 ^ e) bits) (negative : Bool) :
    toFloat negative m e = ofBits negative bits := by
  obtain ⟨found, hfound, heq⟩ := exists_nearest_toFloat hm e
  rw [heq, hfound.unique h]

end Colloquy.Decimal
