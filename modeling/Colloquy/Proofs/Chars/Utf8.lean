import Mathlib.Data.List.Basic
import Mathlib.Tactic.Common
import Colloquy.Chars.Utf8

/-!
# Texts survive UTF-8

Decoding the bytes of a text gives the characters of the text. The decoder takes the bytes of a
character in one step (`step_utf8EncodeChar`), so the proof follows the characters of the text,
one after the other.
-/

namespace Colloquy.Utf8

/-! ## Bytes of a text -/

/-- Listing the last `count` bytes of an array puts them after those listed before. -/
theorem loop_of_remaining {bytes : ByteArray} (count : Nat) :
    ∀ (start : Nat) (listed : List UInt8), start + count = bytes.size →
      ByteArray.toList.loop bytes start listed =
        listed.reverse ++ bytes.data.toList.drop start := by
  induction count with
  | zero =>
    intro start listed hsize
    have hend : bytes.data.toList.drop start = [] := by
      apply List.drop_eq_nil_of_le
      show bytes.size ≤ start
      omega
    rw [ByteArray.toList.loop, if_neg (by omega), hend, List.append_nil]
  | succ count ih =>
    intro start listed hsize
    have hstart : start < bytes.data.toList.length := by
      show start < bytes.size
      omega
    have hbyte : bytes.get! start = bytes.data.toList[start] :=
      getElem!_pos bytes.data start hstart
    rw [ByteArray.toList.loop, if_pos (by omega), ih (start + 1) _ (by omega), hbyte,
      List.drop_eq_getElem_cons hstart]
    simp

theorem toList_toByteArray (bytes : List UInt8) : bytes.toByteArray.toList = bytes := by
  have hall := loop_of_remaining bytes.toByteArray.size 0 [] (Nat.zero_add _)
  rw [ByteArray.toList, hall, List.toList_data_toByteArray]
  rfl

/-- The bytes of a text are those of its characters. -/
theorem encode_eq (s : String) : encode s = s.toList.flatMap String.utf8EncodeChar := by
  rw [encode, String.toUTF8_eq_toByteArray, ← String.utf8Encode_toList, List.utf8Encode,
    toList_toByteArray]

/-! ## Bytes of a character -/

theorem toNat_ofNat_of_lt {n : Nat} (hn : n < 256) : (UInt8.ofNat n).toNat = n := by
  rw [UInt8.toNat_ofNat']
  exact Nat.mod_eq_of_lt hn

theorem isContinuation_iff (b : UInt8) : isContinuation b ↔ 0x80 ≤ b.toNat ∧ b.toNat < 0xC0 := by
  simp [isContinuation, UInt8.le_iff_toNat_le, UInt8.lt_iff_toNat_lt]

/-- A continuation byte can stand second unless the first byte narrows its range. -/
theorem isSecond_of_range {first b : UInt8} (hb : isContinuation b)
    (hoverlong : first.toNat = 0xE0 → 0xA0 ≤ b.toNat)
    (hsurrogate : first.toNat = 0xED → b.toNat < 0xA0)
    (hplane : first.toNat = 0xF0 → 0x90 ≤ b.toNat) (hlast : first.toNat = 0xF4 → b.toNat < 0x90) :
    isSecond first b := by
  unfold isSecond
  rw [hb, Bool.true_and]
  split
  · next h =>
    have hfirst : first = 0xE0 := by simpa using h
    have := hoverlong (by rw [hfirst]; rfl)
    simpa [UInt8.le_iff_toNat_le] using this
  split
  · next h =>
    have hfirst : first = 0xED := by simpa using h
    have := hsurrogate (by rw [hfirst]; rfl)
    simpa [UInt8.lt_iff_toNat_lt] using this
  split
  · next h =>
    have hfirst : first = 0xF0 := by simpa using h
    have := hplane (by rw [hfirst]; rfl)
    simpa [UInt8.le_iff_toNat_le] using this
  split
  · next h =>
    have hfirst : first = 0xF4 := by simpa using h
    have := hlast (by rw [hfirst]; rfl)
    simpa [UInt8.lt_iff_toNat_lt] using this
  · rfl

section Step

variable {b b₂ b₃ b₄ : UInt8}

theorem step_one (hb : b.toNat < 0x80) (bs : List UInt8) :
    step b bs = .ok (1, Char.ofNat b.toNat) := by
  have hascii : b < 0x80 := UInt8.lt_iff_toNat_lt.mpr hb
  unfold step
  rw [if_pos hascii]

/-- A first byte that begins a longer character. -/
theorem starts_of_range (hb : 0xC2 ≤ b.toNat) (hb' : b.toNat < 0xF5) :
    ¬ b < 0x80 ∧ ¬ (b < 0xC2 || 0xF5 ≤ b) = true := by
  have hle : (0xF5 : UInt8).toNat = 0xF5 := rfl
  simp only [Bool.or_eq_true, decide_eq_true_eq, UInt8.lt_iff_toNat_lt, UInt8.le_iff_toNat_le]
  constructor
  · show ¬ b.toNat < 0x80
    omega
  · show ¬ (b.toNat < 0xC2 ∨ 0xF5 ≤ b.toNat)
    omega

theorem step_two (hb : 0xC2 ≤ b.toNat) (hb' : b.toNat < 0xE0) (h₂ : isSecond b b₂)
    (bs : List UInt8) :
    step b (b₂ :: bs) = .ok (2, Char.ofNat ((b.toNat - 0xC0) * 64 + low b₂)) := by
  obtain ⟨hascii, hstart⟩ := starts_of_range hb (by omega)
  have htwo : b < 0xE0 := UInt8.lt_iff_toNat_lt.mpr hb'
  simp only [step, if_neg hascii, if_neg hstart, h₂, if_pos htwo]
  rfl

theorem step_three (hb : 0xE0 ≤ b.toNat) (hb' : b.toNat < 0xF0) (h₂ : isSecond b b₂)
    (h₃ : isContinuation b₃) (bs : List UInt8) :
    step b (b₂ :: b₃ :: bs) =
      .ok (3, Char.ofNat ((b.toNat - 0xE0) * 4096 + low b₂ * 64 + low b₃)) := by
  obtain ⟨hascii, hstart⟩ := starts_of_range (by omega : 0xC2 ≤ b.toNat) (by omega)
  have htwo : ¬ b < 0xE0 := by
    rw [UInt8.lt_iff_toNat_lt]
    show ¬ b.toNat < 0xE0
    omega
  have hthree : b < 0xF0 := UInt8.lt_iff_toNat_lt.mpr hb'
  simp only [step, if_neg hascii, if_neg hstart, h₂, if_neg htwo, h₃, if_pos hthree]
  rfl

theorem step_four (hb : 0xF0 ≤ b.toNat) (hb' : b.toNat < 0xF5) (h₂ : isSecond b b₂)
    (h₃ : isContinuation b₃) (h₄ : isContinuation b₄) (bs : List UInt8) :
    step b (b₂ :: b₃ :: b₄ :: bs) =
      .ok (4, Char.ofNat
        ((b.toNat - 0xF0) * 262144 + low b₂ * 4096 + low b₃ * 64 + low b₄)) := by
  obtain ⟨hascii, hstart⟩ := starts_of_range (by omega : 0xC2 ≤ b.toNat) hb'
  have htwo : ¬ b < 0xE0 := by
    rw [UInt8.lt_iff_toNat_lt]
    show ¬ b.toNat < 0xE0
    omega
  have hthree : ¬ b < 0xF0 := by
    rw [UInt8.lt_iff_toNat_lt]
    show ¬ b.toNat < 0xF0
    omega
  simp only [step, if_neg hascii, if_neg hstart, h₂, if_neg htwo, h₃, if_neg hthree, h₄]
  rfl

end Step

/-- A character takes the numbers that Unicode gives to characters. -/
theorem toNat_cases (c : Char) : c.toNat < 0xD800 ∨ 0xDFFF < c.toNat ∧ c.toNat < 0x110000 :=
  c.valid

/-- Six bits after the mark of a continuation byte. -/
theorem continuation_ofNat (n : Nat) :
    isContinuation (UInt8.ofNat (n % 0x40 + 0x80)) ∧
      low (UInt8.ofNat (n % 0x40 + 0x80)) = n % 0x40 := by
  have hn := toNat_ofNat_of_lt (by omega : n % 0x40 + 0x80 < 256)
  rw [isContinuation_iff, low, hn]
  omega

/-! ## Numbers in two, three and four bytes -/

section Number

variable {n : Nat} (bs : List UInt8)

theorem step_number_two (hlow : 0x7F < n) (hhigh : n ≤ 0x7FF) :
    step (UInt8.ofNat (n / 64 % 0x20 + 0xC0)) (UInt8.ofNat (n % 0x40 + 0x80) :: bs) =
      .ok (2, Char.ofNat n) := by
  have hb := toNat_ofNat_of_lt (by omega : n / 64 % 0x20 + 0xC0 < 256)
  obtain ⟨h₂, hlow₂⟩ := continuation_ofNat n
  have hsecond : isSecond (UInt8.ofNat (n / 64 % 0x20 + 0xC0)) (UInt8.ofNat (n % 0x40 + 0x80)) :=
    isSecond_of_range h₂ (by omega) (by omega) (by omega) (by omega)
  have hvalue : (n / 64 % 0x20 + 0xC0 - 0xC0) * 64 + n % 0x40 = n := by omega
  rw [step_two (by omega) (by omega) hsecond, hb, hlow₂, hvalue]

/-- The numbers that are no characters are those that a second byte after `0xED` must not make. -/
theorem step_number_three (hlow : 0x7FF < n) (hhigh : n ≤ 0xFFFF)
    (hchar : n < 0xD800 ∨ 0xDFFF < n) :
    step (UInt8.ofNat (n / 4096 % 0x10 + 0xE0))
        (UInt8.ofNat (n / 64 % 0x40 + 0x80) :: UInt8.ofNat (n % 0x40 + 0x80) :: bs) =
      .ok (3, Char.ofNat n) := by
  have hb := toNat_ofNat_of_lt (by omega : n / 4096 % 0x10 + 0xE0 < 256)
  have hb₂ := toNat_ofNat_of_lt (by omega : n / 64 % 0x40 + 0x80 < 256)
  obtain ⟨h₂, hlow₂⟩ := continuation_ofNat (n / 64)
  obtain ⟨h₃, hlow₃⟩ := continuation_ofNat n
  have hsecond : isSecond (UInt8.ofNat (n / 4096 % 0x10 + 0xE0))
      (UInt8.ofNat (n / 64 % 0x40 + 0x80)) :=
    isSecond_of_range h₂ (by omega) (by omega) (by omega) (by omega)
  have hvalue : (n / 4096 % 0x10 + 0xE0 - 0xE0) * 4096 + n / 64 % 0x40 * 64 + n % 0x40 = n := by
    omega
  rw [step_three (by omega) (by omega) hsecond h₃, hb, hlow₂, hlow₃, hvalue]

theorem step_number_four (hlow : 0xFFFF < n) (hhigh : n < 0x110000) :
    step (UInt8.ofNat (n / 262144 % 0x08 + 0xF0))
        (UInt8.ofNat (n / 4096 % 0x40 + 0x80) :: UInt8.ofNat (n / 64 % 0x40 + 0x80) ::
          UInt8.ofNat (n % 0x40 + 0x80) :: bs) =
      .ok (4, Char.ofNat n) := by
  have hb := toNat_ofNat_of_lt (by omega : n / 262144 % 0x08 + 0xF0 < 256)
  have hb₂ := toNat_ofNat_of_lt (by omega : n / 4096 % 0x40 + 0x80 < 256)
  obtain ⟨h₂, hlow₂⟩ := continuation_ofNat (n / 4096)
  obtain ⟨h₃, hlow₃⟩ := continuation_ofNat (n / 64)
  obtain ⟨h₄, hlow₄⟩ := continuation_ofNat n
  have hsecond : isSecond (UInt8.ofNat (n / 262144 % 0x08 + 0xF0))
      (UInt8.ofNat (n / 4096 % 0x40 + 0x80)) :=
    isSecond_of_range h₂ (by omega) (by omega) (by omega) (by omega)
  have hvalue : (n / 262144 % 0x08 + 0xF0 - 0xF0) * 262144 + n / 4096 % 0x40 * 4096 +
      n / 64 % 0x40 * 64 + n % 0x40 = n := by omega
  rw [step_four (by omega) (by omega) hsecond h₃ h₄, hb, hlow₂, hlow₃, hlow₄, hvalue]

end Number

/-- The bytes of a character are one step of the decoder. -/
theorem step_utf8EncodeChar (c : Char) (bs : List UInt8) :
    ∃ b rest, String.utf8EncodeChar c = b :: rest ∧
      step b (rest ++ bs) = .ok (rest.length + 1, c) := by
  have hcases := toNat_cases c
  have hchar := Char.ofNat_toNat c
  have hval : c.val.toNat = c.toNat := rfl
  unfold String.utf8EncodeChar
  simp only [hval]
  split
  · refine ⟨_, [], rfl, ?_⟩
    have hb := toNat_ofNat_of_lt (by omega : c.toNat < 256)
    rw [List.nil_append, step_one (by omega), hb, hchar]
    rfl
  split
  · refine ⟨_, [_], rfl, ?_⟩
    have hstep := step_number_two bs (by omega : 0x7F < c.toNat) (by omega)
    rwa [hchar] at hstep
  split
  · refine ⟨_, [_, _], rfl, ?_⟩
    have hstep := step_number_three bs (by omega : 0x7FF < c.toNat) (by omega) (by omega)
    rwa [hchar] at hstep
  · refine ⟨_, [_, _, _], rfl, ?_⟩
    have hstep := step_number_four bs (by omega : 0xFFFF < c.toNat) (by omega)
    rwa [hchar] at hstep

/-! ## Texts -/

/-- Bytes that belong to the character read last are passed over. -/
theorem decodeFrom_skip (rest : List UInt8) (position : Nat) (done : List Char) (bs : List UInt8) :
    decodeFrom position rest.length done (rest ++ bs) =
      decodeFrom (position + rest.length) 0 done bs := by
  induction rest generalizing position with
  | nil => rfl
  | cons b rest ih =>
    rw [List.length_cons, List.cons_append, decodeFrom, ih, Nat.add_assoc, Nat.add_comm 1]

/-- Decoding the bytes of a text gives its characters. -/
theorem decode_encode (s : String) : decode (encode s) = .ok s.toList := by
  have hchars : ∀ (cs done : List Char) (position : Nat),
      decodeFrom position 0 done (cs.flatMap String.utf8EncodeChar) = .ok (done.reverse ++ cs) := by
    intro cs
    induction cs with
    | nil =>
      intro done position
      rw [List.flatMap_nil, decodeFrom, List.append_nil]
    | cons c cs ih =>
      intro done position
      obtain ⟨b, rest, hbytes, hstep⟩ := step_utf8EncodeChar c (cs.flatMap String.utf8EncodeChar)
      rw [List.flatMap_cons, hbytes, List.cons_append, decodeFrom]
      simp only [hstep, Nat.add_sub_cancel, decodeFrom_skip, ih]
      simp
  rw [decode, encode_eq, hchars]
  rfl

end Colloquy.Utf8
