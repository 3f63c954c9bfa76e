import Colloquy.Proofs.Decimal.Digits
import Colloquy.Proofs.Decimal.Shortest
import Colloquy.Proofs.Json.Leaves

/-!
# Written numbers are read back

An integer that is not too long is read back from its digits (`readInt_intText`). A finite double
is read back from the text that it is written as (`readFloat?_floatText`): every layout of a
decimal number keeps its value, and the number that is laid out is one that is read as the double.
No such text is an integer.
-/

namespace Colloquy.Decimal

open Binary Chars

/-! ## Numerals -/

/-- The values of numerals. -/
def numeralDigits (cs : List Char) : List Nat :=
  cs.map fun c => c.toNat - 48

theorem digitValue?_of_isNumeral {c : Char} (h : Json.isNumeral c = true) :
    digitValue? c = some (c.toNat - 48) := by
  rw [Json.isNumeral, Bool.and_eq_true, decide_eq_true_eq, decide_eq_true_eq] at h
  have hlow : 48 ≤ c.toNat := h.1
  have hhigh : c.toNat ≤ 57 := h.2
  have hfirst : (0x30 ≤ c.toNat && c.toNat < 0x30 + 10) = true := by
    rw [Bool.and_eq_true, decide_eq_true_eq, decide_eq_true_eq]
    omega
  have hfound :
      zeroDigits.find? (fun first => first ≤ c.toNat && c.toNat < first + 10) = some 0x30 :=
    List.find?_cons_of_pos hfirst
  rw [digitValue?, hfound]
  rfl

theorem spells_of_isNumeral {cs : List Char} (hne : cs ≠ [])
    (h : ∀ c ∈ cs, Json.isNumeral c = true) :
    Spells cs (numeralDigits cs) := by
  induction cs with
  | nil => exact absurd rfl hne
  | cons c cs ih =>
    rw [List.forall_mem_cons] at h
    have hc := digitValue?_of_isNumeral h.1
    cases cs with
    | nil => exact .digit hc
    | cons next cs => exact .cons hc (ih (List.cons_ne_nil _ _) h.2)

theorem isBlank_of_isNumeral {c : Char} (h : Json.isNumeral c = true) : isBlank c = false :=
  isBlank_of_digitValue? (digitValue?_of_isNumeral h)

theorem ofDigits_numeralDigits (cs : List Char) :
    ofDigits (numeralDigits cs) = Json.numeralsValue cs := by
  rw [ofDigits, numeralDigits, List.foldl_map]
  rfl

theorem natText_ne_nil (n : Nat) : natText n ≠ [] := by
  rw [natText]
  exact Nat.toDigits_ne_nil

theorem length_numeralDigits (cs : List Char) : (numeralDigits cs).length = cs.length :=
  List.length_map _

/-! ## Integers -/

theorem isInteger_intText {i : Int} (h : (natText i.natAbs).length ≤ maxDigits) :
    IsInteger (intText i).toList i := by
  have hspells := spells_of_isNumeral (natText_ne_nil i.natAbs) Json.isNumeral_of_mem_natText
  have hvalue : Nat.ofDigits 10 (numeralDigits (natText i.natAbs)).reverse = i.natAbs := by
    rw [← ofDigits_eq, ofDigits_numeralDigits, Json.numeralsValue_natText]
  rw [← length_numeralDigits] at h
  rw [intText, String.toList_ofList]
  split
  · next hsign =>
    refine ⟨['-'], true, _, _, .minus, hspells, h, rfl, ?_⟩
    rw [hvalue, signed, if_pos rfl]
    omega
  · next hsign =>
    refine ⟨[], false, _, _, .none, hspells, h, rfl, ?_⟩
    rw [hvalue, signed, if_neg Bool.false_ne_true]
    omega

/-- A written integer is read back if it is not too long. -/
theorem readInt_intText {i : Int} (h : (natText i.natAbs).length ≤ maxDigits) :
    readInt (intText i).toList = .ok i :=
  readInt_of_isInteger (isInteger_intText h)

/-! ## Decimal fractions -/

/-- A decimal fraction: digits, more digits after a point if there are any, and what ends it. -/
def fraction (whole part tail : List Char) : List Char :=
  whole ++ ((if part.isEmpty then [] else '.' :: part) ++ tail)

/-- A text ends a decimal fraction with an exponent, or there is none. -/
inductive IsTail : List Char → Int → Prop
  | none : IsTail [] 0
  | exponent {e : Int} : IsTail ('e' :: exponentText e) e

/-- Characters lay a decimal number out: digits, at least one before the point and after it at
least one unless there is an exponent, which together stand for the number. -/
structure IsLayout (text : List Char) (value : ℚ) (whole part tail : List Char) (e : Int) :
    Prop where
  text_eq : text = fraction whole part tail
  whole_ne : whole ≠ []
  numerals : ∀ c ∈ whole ++ part, Json.isNumeral c = true
  isTail : IsTail tail e
  more : part = [] → tail ≠ []
  value_eq : (Json.numeralsValue (whole ++ part) : ℚ) * 10 ^ (e - part.length) = value

theorem isNumeral_exponentText (e : Int) :
    ∃ sign negative run, IsSign sign negative ∧ run ≠ [] ∧ (∀ c ∈ run, Json.isNumeral c = true) ∧
      exponentText e = sign ++ run ∧ e = signed negative (Json.numeralsValue run) := by
  have hrun :
      ∃ run,
        (if (natText e.natAbs).length < 2 then '0' :: natText e.natAbs else natText e.natAbs) =
          run ∧
      run ≠ [] ∧ (∀ c ∈ run, Json.isNumeral c = true) ∧ Json.numeralsValue run = e.natAbs := by
    split
    · refine ⟨_, rfl, List.cons_ne_nil _ _, ?_, ?_⟩
      · rw [List.forall_mem_cons]
        exact ⟨by decide, Json.isNumeral_of_mem_natText⟩
      · have hzero : Json.numeralsValue ('0' :: natText e.natAbs) =
          Json.numeralsValue (natText e.natAbs) := rfl
        rw [hzero, Json.numeralsValue_natText]
    · exact ⟨_, rfl, natText_ne_nil _, Json.isNumeral_of_mem_natText, Json.numeralsValue_natText _⟩
  obtain ⟨run, heq, hne, hnumerals, hvalue⟩ := hrun
  unfold exponentText
  dsimp only
  rw [heq]
  by_cases hsign : e < 0
  · refine ⟨['-'], true, run, .minus, hne, hnumerals, by rw [if_pos hsign]; rfl, ?_⟩
    rw [hvalue, signed, if_pos rfl]
    omega
  · refine ⟨['+'], false, run, .plus, hne, hnumerals, by rw [if_neg hsign]; rfl, ?_⟩
    rw [hvalue, signed, if_neg Bool.false_ne_true]
    omega

theorem IsTail.exponent?_eq {tail : List Char} {e : Int} (h : IsTail tail e) :
    exponent? tail = some e := by
  cases h with
  | none => rfl
  | exponent =>
    obtain ⟨text, negative, run, hsign, hne, hnumerals, heq, hvalue⟩ := isNumeral_exponentText e
    have hspells := spells_of_isNumeral hne hnumerals
    obtain ⟨c, d, rest, hrun, hd⟩ := hspells.head
    have hdigits := hspells.digits_append stops_nil
    rw [List.append_nil] at hdigits
    have he : ('e' == 'e' || 'e' == 'E') = true := by decide
    rw [exponent?, if_pos he, heq, hrun, hsign.sign_append hd, ← hrun]
    dsimp only
    rw [hdigits]
    cases hds : numeralDigits run with
    | nil => exact absurd hds hspells.ne_nil
    | cons first others =>
      dsimp only
      rw [← hds, ofDigits_numeralDigits, ← hvalue]

theorem IsTail.not_isBlank {tail : List Char} {e : Int} (h : IsTail tail e) :
    ∀ c ∈ tail, isBlank c = false := by
  cases h with
  | none => simp
  | exponent =>
    obtain ⟨text, negative, run, hsign, -, hnumerals, heq, -⟩ := isNumeral_exponentText e
    intro c hc
    rw [heq, List.mem_cons, List.mem_append] at hc
    rcases hc with rfl | htext | hrun
    · decide
    · exact hsign.not_isBlank c htext
    · exact isBlank_of_isNumeral (hnumerals c hrun)

theorem IsTail.ne_point {tail : List Char} {e : Int} (h : IsTail tail e) (cs : List Char) :
    tail ≠ '.' :: cs := by
  cases h <;> simp

theorem IsTail.stops {tail : List Char} {e : Int} (h : IsTail tail e) : Stops tail := by
  cases h with
  | none => exact stops_nil
  | exponent => exact stops_cons _ (by decide) (by decide)

namespace IsLayout

variable {text whole part tail : List Char} {value : ℚ} {e : Int}
    (h : IsLayout text value whole part tail e)

include h

/-- A laid out number begins with a digit, has no blanks, and its digits end where they should. -/
theorem whole_stops : Stops ((if part.isEmpty then [] else '.' :: part) ++ tail) := by
  split
  · exact h.isTail.stops
  · exact stops_cons _ (by decide) (by decide)

theorem spells_whole : Spells whole (numeralDigits whole) :=
  spells_of_isNumeral h.whole_ne fun c hc => h.numerals c (List.mem_append_left _ hc)

theorem isTrimmed {sign : List Char} {negative : Bool} (hsign : IsSign sign negative) :
    IsTrimmed (sign ++ text) := by
  refine isTrimmed_of_forall fun c hc => ?_
  rw [h.text_eq, fraction, List.mem_append, List.mem_append, List.mem_append] at hc
  rcases hc with hsigned | hwhole | hpart | htail
  · exact hsign.not_isBlank c hsigned
  · exact isBlank_of_isNumeral (h.numerals c (List.mem_append_left _ hwhole))
  · split at hpart
    · cases hpart
    · rcases List.mem_cons.1 hpart with rfl | hpart
      · decide
      · exact isBlank_of_isNumeral (h.numerals c (List.mem_append_right _ hpart))
  · exact h.isTail.not_isBlank c htail

/-- What is left of a laid out number once its sign and its first digits are read. -/
theorem sign_digits {sign : List Char} {negative : Bool} (hsign : IsSign sign negative) :
    Decimal.sign (trimNumber (sign ++ text)) = (negative, text) ∧
      digits text = (numeralDigits whole, (if part.isEmpty then [] else '.' :: part) ++ tail) := by
  obtain ⟨c, d, rest, hrun, hd⟩ := h.spells_whole.head
  have htext : text = c :: (rest ++ ((if part.isEmpty then [] else '.' :: part) ++ tail)) := by
    rw [h.text_eq, fraction, hrun]
    rfl
  constructor
  · rw [trimNumber_of_isTrimmed (h.isTrimmed hsign), htext, hsign.sign_append hd]
  · rw [h.text_eq, fraction, h.spells_whole.digits_append h.whole_stops]

/-- A laid out number is read as digits with an exponent that stand for its value. -/
theorem readFraction?_eq {sign : List Char} {negative : Bool} (hsign : IsSign sign negative) :
    readFraction? (sign ++ text) =
      some (negative, Json.numeralsValue (whole ++ part), e - part.length) := by
  obtain ⟨hhead, hdigits⟩ := h.sign_digits hsign
  have hwhole : (numeralDigits whole).isEmpty = false := by
    simpa using h.spells_whole.ne_nil
  have happend : numeralDigits whole ++ numeralDigits part = numeralDigits (whole ++ part) :=
    List.map_append.symm
  have hexponent := h.isTail.exponent?_eq
  unfold readFraction?
  rw [hhead]
  dsimp only
  rw [hdigits]
  by_cases hpart : part = []
  · subst hpart
    simp only [List.isEmpty_nil, if_true, List.nil_append]
    split
    · next cs => exact absurd rfl (h.isTail.ne_point cs)
    · simp only [hwhole, Bool.false_and, Bool.false_eq_true, if_false, hexponent, List.append_nil,
        ofDigits_numeralDigits, Option.pure_def, Option.bind_eq_bind, Option.bind_some,
        List.length_nil]
  · have hspells : Spells part (numeralDigits part) :=
      spells_of_isNumeral hpart fun c hc => h.numerals c (List.mem_append_right _ hc)
    simp only [List.isEmpty_iff, hpart, if_false, List.cons_append,
      hspells.digits_append h.isTail.stops, hwhole, Bool.false_and, Bool.false_eq_true, hexponent,
      happend, ofDigits_numeralDigits, length_numeralDigits,
      Option.pure_def, Option.bind_eq_bind, Option.bind_some]

/-- A laid out number is no integer: a point or an exponent follows the digits. -/
theorem readInt_eq {sign : List Char} {negative : Bool} (hsign : IsSign sign negative) :
    ∃ failure, readInt (sign ++ text) = .error failure := by
  obtain ⟨hhead, hdigits⟩ := h.sign_digits hsign
  have hmore : ((if part.isEmpty then [] else '.' :: part) ++ tail).isEmpty = false := by
    cases hcs : part with
    | nil => simpa using h.more hcs
    | cons c cs => rfl
  generalize (if part.isEmpty then [] else '.' :: part) ++ tail = rest at hdigits hmore
  rw [readInt, hhead]
  dsimp only
  rw [hdigits]
  cases hds : numeralDigits whole with
  | nil => exact absurd hds h.spells_whole.ne_nil
  | cons first others =>
    dsimp only
    split
    · exact ⟨_, rfl⟩
    · rw [hmore]
      exact ⟨_, rfl⟩

end IsLayout

/-! ## Layouts -/

theorem numeralsValue_append_zeros (cs : List Char) (n : Nat) :
    Json.numeralsValue (cs ++ List.replicate n '0') = Json.numeralsValue cs * 10 ^ n := by
  induction n with
  | zero => simp
  | succ n ih =>
    rw [List.replicate_succ', ← List.append_assoc]
    unfold Json.numeralsValue at ih ⊢
    rw [List.foldl_append, ih, Nat.pow_succ, ← Nat.mul_assoc]
    rfl

theorem numeralsValue_zeros_append (cs : List Char) (n : Nat) :
    Json.numeralsValue (List.replicate n '0' ++ cs) = Json.numeralsValue cs := by
  induction n with
  | zero => rfl
  | succ n ih =>
    rw [List.replicate_succ, List.cons_append, ← ih]
    rfl

theorem isNumeral_of_mem_zeros {n : Nat} {c : Char} (h : c ∈ List.replicate n '0') :
    Json.isNumeral c = true := by
  rw [List.eq_of_mem_replicate h]
  decide

section Layouts

variable {ds : List Char} {n : Nat} (hne : ds ≠ []) (hnumerals : ∀ c ∈ ds, Json.isNumeral c = true)
  (hvalue : Json.numeralsValue ds = n)

include hne hnumerals hvalue

/-- All digits after the point, and zeros before them. -/
theorem isLayout_zeros_before (zeros : Nat) :
    IsLayout ('0' :: '.' :: (List.replicate zeros '0' ++ ds))
      (n * 10 ^ (-(zeros + ds.length : Int))) ['0']
      (List.replicate zeros '0' ++ ds) [] 0 := by
  refine ⟨by simp [fraction, hne], by simp, fun c hc => ?_, .none, by simp [hne], ?_⟩
  · simp only [List.mem_append, List.mem_singleton] at hc
    rcases hc with rfl | hzero | hdigit
    · decide
    · exact isNumeral_of_mem_zeros hzero
    · exact hnumerals c hdigit
  · have hzeros : Json.numeralsValue (['0'] ++ (List.replicate zeros '0' ++ ds)) = n := by
      rw [← hvalue, ← numeralsValue_zeros_append ds zeros]
      rfl
    rw [hzeros, List.length_append, List.length_replicate, zero_sub, Nat.cast_add]

/-- All digits before the point, and zeros after them. -/
theorem isLayout_zeros_after (zeros : Nat) :
    IsLayout (ds ++ List.replicate zeros '0' ++ ['.', '0']) (n * 10 ^ (zeros : Int))
      (ds ++ List.replicate zeros '0')
      ['0'] [] 0 := by
  refine ⟨by simp [fraction], by simp [hne], fun c hc => ?_, .none, by simp, ?_⟩
  · simp only [List.mem_append, List.mem_singleton] at hc
    rcases hc with (hdigit | hzero) | rfl
    · exact hnumerals c hdigit
    · exact isNumeral_of_mem_zeros hzero
    · decide
  · have hzero : ['0'] = List.replicate 1 '0' := rfl
    rw [hzero, numeralsValue_append_zeros, numeralsValue_append_zeros, hvalue, zpow_natCast]
    push_cast
    norm_num
    ring

/-- The point after one of the digits. -/
theorem isLayout_split {place : Nat} (hpos : 0 < place) (hle : place ≤ ds.length)
    {tail : List Char} {e : Int} (htail : IsTail tail e) (hmore : place = ds.length → tail ≠ []) :
    IsLayout (fraction (ds.take place) (ds.drop place) tail)
      (n * 10 ^ (place + e - ds.length : Int)) (ds.take place)
      (ds.drop place) tail e := by
  have hsplit : ds.take place ++ ds.drop place = ds := List.take_append_drop _ _
  refine ⟨rfl, ?_, by rwa [hsplit], htail, fun hnil => hmore ?_, ?_⟩
  · rw [ne_eq, List.take_eq_nil_iff]
    simp only [hne, or_false]
    exact hpos.ne'
  · exact Nat.le_antisymm hle (List.drop_eq_nil_iff.1 hnil)
  · rw [hsplit, hvalue, List.length_drop]
    congr 2
    omega

end Layouts

/-- The layouts of a decimal number all stand for it. -/
theorem exists_isLayout (s : Scientific) :
    ∃ whole part tail e, IsLayout (scientificText s) s.value whole part tail e := by
  have hne := natText_ne_nil s.mantissa
  have hnumerals : ∀ c ∈ natText s.mantissa, Json.isNumeral c = true :=
    Json.isNumeral_of_mem_natText
  have hvalue := Json.numeralsValue_natText s.mantissa
  unfold scientificText Scientific.value
  dsimp only
  generalize natText s.mantissa = ds at hne hnumerals hvalue
  have hpos : 0 < ds.length := List.length_pos_iff.2 hne
  -- the layout goes by the place of the point among the digits
  obtain ⟨point, hpoint⟩ : ∃ point : Int, ds.length + s.exponent = point := ⟨_, rfl⟩
  have hexponent : s.exponent = point - ds.length := by omega
  rw [hpoint, hexponent]
  split
  · split
    · obtain ⟨zeros, rfl⟩ : ∃ zeros : Nat, point = -zeros := ⟨(-point).toNat, by omega⟩
      have hlayout := isLayout_zeros_before hne hnumerals hvalue zeros
      rw [neg_add'] at hlayout
      rw [neg_neg, Int.toNat_natCast]
      exact ⟨_, _, _, _, hlayout⟩
    · split
      · obtain ⟨zeros, rfl⟩ : ∃ zeros : Nat, point = ds.length + zeros :=
          ⟨(point - ds.length).toNat, by omega⟩
        have hlayout := isLayout_zeros_after hne hnumerals hvalue zeros
        rw [add_sub_cancel_left, Int.toNat_natCast]
        exact ⟨_, _, _, _, hlayout⟩
      · obtain ⟨place, rfl⟩ : ∃ place : Nat, point = place := ⟨point.toNat, by omega⟩
        have hlayout :=
          isLayout_split hne hnumerals hvalue (by omega : 0 < place) (by omega) .none (by omega)
        have hpart : ds.drop place ≠ [] := fun hnil => by
          have := List.drop_eq_nil_iff.1 hnil
          omega
        rw [fraction, if_neg (by simpa using hpart), List.append_nil, add_zero] at hlayout
        exact ⟨_, _, _, _, hlayout⟩
  · have hlayout :=
      isLayout_split hne hnumerals hvalue one_pos hpos (@IsTail.exponent (point - 1)) (by simp)
    rw [fraction, ← List.append_assoc, Nat.cast_one, add_sub_cancel] at hlayout
    exact ⟨_, _, _, _, hlayout⟩

/-! ## Doubles -/

/-- The largest integer that is a double has fewer digits than are too many. -/
theorem natText_length_of_toInt? {x : Float} {i : Int} (h : toInt? x = some i) :
    (natText i.natAbs).length ≤ maxDigits := by
  unfold toInt? at h
  split at h
  · next negative m e hview =>
    obtain ⟨_, hmagnitude, rfl⟩ := Option.map_eq_some_iff.1 h
    obtain ⟨n, hn, hcast⟩ := Option.bind_eq_some_iff.1 hmagnitude
    cases hcast
    have hle : n ≤ m * twoTo e.toNat := by
      split at hn
      · exact (Option.some.inj hn).symm.le
      · split at hn
        · rw [← Option.some.inj hn]
          exact (Nat.div_le_self _ _).trans (Nat.le_mul_of_pos_right _ (twoTo_pos _))
        · cases hn
    have hlt : n < tenTo maxDigits := by
      by_cases hm : m = 0
      · rw [hm, Nat.zero_mul] at hle
        exact hle.trans_lt (tenTo_pos _)
      · have hcanonical := canonical_of_view hview hm
        have hexponent : e.toNat ≤ 971 := by
          have := hcanonical.most
          omega
        calc
          n ≤ m * twoTo e.toNat := hle
          _ < twoTo 53 * twoTo 971 :=
            Nat.mul_lt_mul_of_lt_of_le hcanonical.digits (twoTo_le_twoTo hexponent) (twoTo_pos 971)
          _ ≤ tenTo maxDigits := by decide +kernel
    have habs : (if negative then -(n : Int) else n).natAbs = n := by
      split <;> simp
    rw [habs]
    exact natText_length_le (by decide) hlt
  · cases h

/-- What is written of a finite double after its sign is a layout that is read as the double. -/
theorem exists_isLayout_of_view {x : Float} {negative : Bool} {m : ℕ} {e : ℤ}
    (hview : view x = .finite negative m e) :
    ∃ value whole part tail d,
      IsLayout (if m == 0 then ['0', '.', '0'] else scientificText (shortest m e)) value whole
        part tail d ∧
        toFloat negative (Json.numeralsValue (whole ++ part)) (d - part.length) = x := by
  have hx := eq_ofBits_place hview
  by_cases hm : m = 0
  · subst hm
    have hplace : place 0 e = 0 := by
      rw [exponent_of_view_zero hview]
      decide
    refine ⟨0, ['0'], ['0'], [], 0, ⟨?_, by simp, by simp [Json.isNumeral], .none, by simp, ?_⟩, ?_⟩
    · simp [fraction]
    · simp [Json.numeralsValue]
    · rw [hx, hplace]
      rfl
  · obtain ⟨hne, hnearest⟩ := shortest_reads_back (canonical_of_view hview hm)
    obtain ⟨whole, part, tail, d, hlayout⟩ := exists_isLayout (shortest m e)
    refine ⟨_, whole, part, tail, d, by rw [if_neg (by simpa using hm)]; exact hlayout, ?_⟩
    have hpositive : Json.numeralsValue (whole ++ part) ≠ 0 := by
      intro hzero
      have hvalue := hlayout.value_eq
      rw [hzero, Nat.cast_zero, zero_mul, Scientific.value, eq_comm, mul_eq_zero,
        Nat.cast_eq_zero] at hvalue
      rcases hvalue with hmantissa | hpower
      · exact hne hmantissa
      · exact (ten_zpow_pos _).ne' hpower
    rw [← hlayout.value_eq] at hnearest
    rw [toFloat_eq_of_nearest hpositive hnearest, ← hx]

/-- The text of a finite double: its sign and a layout that is read as the double. -/
theorem exists_floatText {x : Float} (h : isFinite x = true) :
    ∃ sign negative body value whole part tail e, IsSign sign negative ∧
      (floatText x).toList = sign ++ body ∧ IsLayout body value whole part tail e ∧
      toFloat negative (Json.numeralsValue (whole ++ part)) (e - part.length) = x := by
  obtain ⟨negative, m, e, hview⟩ := exists_of_isFinite h
  obtain ⟨value, whole, part, tail, d, hlayout, hread⟩ := exists_isLayout_of_view hview
  unfold floatText
  rw [hview]
  dsimp only
  rw [String.toList_ofList]
  cases negative with
  | true => exact ⟨['-'], true, _, value, whole, part, tail, d, .minus, rfl, hlayout, hread⟩
  | false => exact ⟨[], false, _, value, whole, part, tail, d, .none, rfl, hlayout, hread⟩

/-- A finite double is read back from its text. -/
theorem readFloat?_floatText {x : Float} (h : isFinite x = true) :
    readFloat? (floatText x).toList = some x := by
  obtain ⟨sign, negative, body, value, whole, part, tail, e, hsign, htext, hlayout, hread⟩ :=
    exists_floatText h
  rw [readFloat?, htext, hlayout.readFraction?_eq hsign]
  simp only [Option.bind_eq_bind, Option.bind_some, hread, h, if_true]

/-- The text of a finite double is no integer. -/
theorem readInt_floatText {x : Float} (h : isFinite x = true) :
    ∃ failure, readInt (floatText x).toList = .error failure := by
  obtain ⟨sign, negative, body, value, whole, part, tail, e, hsign, htext, hlayout, -⟩ :=
    exists_floatText h
  rw [htext]
  exact hlayout.readInt_eq hsign

end Colloquy.Decimal
