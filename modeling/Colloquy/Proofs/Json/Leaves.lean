import Mathlib.Data.List.Basic
import Mathlib.Tactic.Common
import Colloquy.Json.Reader
import Colloquy.Json.Writer

/-!
# Texts and integers are read back

The parts of a JSON text that hold no other values. A written text is read back whatever follows
it. A written integer is read back if what follows does not go on with it, and if it has no more
digits than the reader takes.
-/

namespace Colloquy.Json

/-! ## Escapes -/

theorem hexValue?_digitChar {d : Nat} (hd : d < 16) :
    Chars.hexValue? (Nat.digitChar d) = some d := by
  have hall : ∀ d < 16, Chars.hexValue? (Nat.digitChar d) = some d := by decide
  exact hall d hd

/-- Four digits in base sixteen stand for the number that they were made of. -/
theorem unicodeEscape?_hexDigits {n : Nat} (hn : n < 65536) (c : Char) (cs : List Char) :
    unicodeEscape? (Chars.hexDigits 4 n ++ c :: cs) = some (n, c :: cs) := by
  have h0 := hexValue?_digitChar (Nat.mod_lt n (by omega : 16 > 0))
  have h1 := hexValue?_digitChar (Nat.mod_lt (n / 16) (by omega : 16 > 0))
  have h2 := hexValue?_digitChar (Nat.mod_lt (n / 16 / 16) (by omega : 16 > 0))
  have h3 := hexValue?_digitChar (Nat.mod_lt (n / 16 / 16 / 16) (by omega : 16 > 0))
  have hvalue : ((n / 16 / 16 / 16 % 16 * 16 + n / 16 / 16 % 16) * 16 + n / 16 % 16) * 16 + n % 16 =
      n := by omega
  simp [Chars.hexDigits, unicodeEscape?, hex4?, h0, h1, h2, h3, hvalue]

/-- A character that is no half of a pair is taken alone. -/
theorem pairUp_of_lt {n : Nat} (hn : n < 0xD800) (cs : List Char) :
    pairUp n cs = .ok (Char.ofNat n, 0) := by
  have hhigh : isHighSurrogate n = false := by
    simp only [isHighSurrogate, Bool.and_eq_false_iff, decide_eq_false_iff_not]
    omega
  have hchar : charOf n = Char.ofNat n := by
    have hlow : ¬ 0xD800 ≤ n := by omega
    simp [charOf, hlow]
  unfold pairUp
  split
  · rw [hhigh, hchar]
    rfl
  · rw [hchar]

/-- A control character is read back from its digits. -/
theorem escape_hexDigits {c : Char} (hc : c.toNat < 0x20) (next : Char) (cs : List Char) :
    escape 'u' (Chars.hexDigits 4 c.toNat ++ next :: cs) = .ok (c, 5) := by
  rw [escape, if_pos rfl, unicodeEscape?_hexDigits (by omega)]
  show (pairUp c.toNat (next :: cs)).map (fun entry => (entry.1, 5 + entry.2)) = .ok (c, 5)
  rw [pairUp_of_lt (by omega), Char.ofNat_toNat]
  rfl

/-- A character is written as an escape with a letter, as an escape with its digits, or as
itself. -/
theorem escapeChar_cases (c : Char) :
    (∃ letter, escapeChar c = ['\\', letter] ∧ letter ≠ 'u' ∧ simpleEscape? letter = some c) ∨
    (escapeChar c = '\\' :: 'u' :: Chars.hexDigits 4 c.toNat ∧ c.toNat < 0x20) ∨
    (escapeChar c = [c] ∧ c ≠ '"' ∧ c ≠ '\\' ∧ ¬ c.toNat < 0x20) := by
  unfold escapeChar
  simp only [beq_iff_eq]
  split
  · next h => exact .inl ⟨'"', rfl, by decide, by rw [h]; rfl⟩
  split
  · next h => exact .inl ⟨'\\', rfl, by decide, by rw [h]; rfl⟩
  split
  · next h => exact .inl ⟨'n', rfl, by decide, by rw [h]; rfl⟩
  split
  · next h => exact .inl ⟨'r', rfl, by decide, by rw [h]; rfl⟩
  split
  · next h => exact .inl ⟨'t', rfl, by decide, by rw [h]; rfl⟩
  split
  · next h => exact .inl ⟨'b', rfl, by decide, by rw [h]; rfl⟩
  split
  · next h => exact .inl ⟨'f', rfl, by decide, by rw [h]; rfl⟩
  split
  · next hcontrol => exact .inr (.inl ⟨rfl, hcontrol⟩)
  · next hquote hbackslash _ _ _ _ _ hplain =>
    exact .inr (.inr ⟨rfl, hquote, hbackslash, hplain⟩)

/-! ## Texts -/

/-- A character that is written in a text is the next character read. -/
theorem textAfterQuote_escapeChar (start done : List Char) (c next : Char) (cs : List Char) :
    textAfterQuote start done 0 (escapeChar c ++ next :: cs) =
      textAfterQuote start (c :: done) 0 (next :: cs) := by
  rcases escapeChar_cases c with ⟨letter, hwritten, hletter, hread⟩ | ⟨hwritten, hcontrol⟩ |
    ⟨hwritten, hquote, hbackslash, hplain⟩
  · have hescape : escape letter (next :: cs) = .ok (c, 1) := by
      rw [escape, if_neg hletter, hread]
    rw [hwritten, List.cons_append, List.cons_append, List.nil_append, textAfterQuote,
      if_neg (by decide), if_pos rfl]
    simp only [hescape, textAfterQuote]
  · -- the digits are skipped one by one after the escape has been read as a whole
    have hescape := escape_hexDigits hcontrol next cs
    have hfour : ∃ a b c' d, Chars.hexDigits 4 c.toNat = [a, b, c', d] := ⟨_, _, _, _, rfl⟩
    obtain ⟨a, b, c', d, hdigits⟩ := hfour
    rw [hdigits] at hescape hwritten
    simp only [List.cons_append, List.nil_append] at hescape
    rw [hwritten]
    simp only [List.cons_append, List.nil_append]
    rw [textAfterQuote, if_neg (by decide), if_pos rfl]
    simp only [hescape, textAfterQuote]
  · rw [hwritten, List.singleton_append, textAfterQuote, if_neg hquote, if_neg hbackslash,
      if_neg hplain]

/-- A written text is read back after its opening quote. -/
theorem readText_written (s : String) (rest : List Char) :
    readText (s.toList.flatMap escapeChar ++ '"' :: rest) = .ok (s, rest) := by
  have hread : ∀ (start cs done : List Char),
      textAfterQuote start done 0 (cs.flatMap escapeChar ++ '"' :: rest) =
        .ok (String.ofList (done.reverse ++ cs), rest) := by
    intro start cs
    induction cs with
    | nil =>
      intro done
      simp [textAfterQuote]
    | cons c cs ih =>
      intro done
      have hnext : ∃ next more, cs.flatMap escapeChar ++ '"' :: rest = next :: more := by
        cases h : cs.flatMap escapeChar ++ '"' :: rest with
        | nil => simp at h
        | cons next more => exact ⟨next, more, rfl⟩
      obtain ⟨next, more, hmore⟩ := hnext
      have hrest := ih (c :: done)
      rw [hmore] at hrest
      rw [List.flatMap_cons, List.append_assoc, hmore, textAfterQuote_escapeChar, hrest]
      simp
  rw [readText, hread]
  simp

/-! ## Integers -/

/-- What follows a value in a written text: nothing, a comma or a line end. -/
def Ends (rest : List Char) : Prop :=
  ∀ c ∈ rest.head?, c = ',' ∨ c = '\n'

theorem ends_nil : Ends [] := by
  simp [Ends]

theorem ends_comma (cs : List Char) : Ends (',' :: cs) := by
  simp [Ends]

theorem ends_newLine (depth : Nat) (cs : List Char) : Ends (newLine depth ++ cs) := by
  simp [Ends, newLine]

theorem isNumeral_of_mem_natText {n : Nat} : ∀ c ∈ Decimal.natText n, isNumeral c := by
  intro c hc
  have hdigit := Nat.isDigit_of_mem_toDigits (by omega) (by omega) hc
  simpa [isNumeral, Char.isDigit, Char.le_def] using hdigit

/-- The digits of a number that is not zero do not start with a zero. -/
theorem natText_head {n : Nat} (hn : 0 < n) :
    ∃ c cs, Decimal.natText n = c :: cs ∧ c ≠ '0' := by
  unfold Decimal.natText
  induction n using Nat.strongRecOn with
  | ind n ih =>
    by_cases hsmall : n < 10
    · refine ⟨Nat.digitChar n, [], Nat.toDigits_of_lt_base hsmall, ?_⟩
      have hall : ∀ d < 10, 0 < d → Nat.digitChar d ≠ '0' := by decide
      exact hall n hsmall hn
    · obtain ⟨c, cs, hhead, hc⟩ := ih (n / 10) (by omega) (by omega)
      refine ⟨c, cs ++ [Nat.digitChar (n % 10)], ?_, hc⟩
      rw [Nat.toDigits_of_base_le (by omega) (by omega), hhead, List.cons_append]

theorem numeralsValue_natText (n : Nat) : numeralsValue (Decimal.natText n) = n := by
  have hfold : numeralsValue (Decimal.natText n) = Nat.ofDigitChars 10 (Decimal.natText n) 0 := by
    rw [Nat.ofDigitChars_eq_foldl, numeralsValue]
    congr 1
    funext m c
    rw [Nat.mul_comm]
  rw [hfold]
  exact Nat.ofDigitChars_ten_toDigits

section Rest

variable {rest : List Char}

theorem not_isNumeral_of_ends (hrest : Ends rest) : ∀ c ∈ rest.head?, isNumeral c = false := by
  intro c hc
  rcases hrest c hc with rfl | rfl <;> decide

theorem takeWhile_isNumeral_append {ds : List Char} (hds : ∀ c ∈ ds, isNumeral c)
    (hrest : Ends rest) :
    (ds ++ rest).takeWhile isNumeral = ds ∧ (ds ++ rest).dropWhile isNumeral = rest := by
  rw [List.takeWhile_append_of_pos hds, List.dropWhile_append_of_pos hds]
  have hstop := not_isNumeral_of_ends hrest
  cases rest with
  | nil => simp
  | cons c cs => simp [hstop c rfl]

/-- The digits of a number are its whole part. -/
theorem wholePart?_natText (n : Nat) (hrest : Ends rest) :
    wholePart? (Decimal.natText n ++ rest) = some (Decimal.natText n, rest) := by
  by_cases hzero : n = 0
  · rw [hzero]
    rfl
  · obtain ⟨c, cs, htext, hc⟩ := natText_head (Nat.pos_of_ne_zero hzero)
    have hdigits : ∀ d ∈ c :: cs, isNumeral d := htext ▸ isNumeral_of_mem_natText
    obtain ⟨htake, hdrop⟩ := takeWhile_isNumeral_append
      (fun d hd => hdigits d (List.mem_cons_of_mem _ hd)) hrest
    have hfirst : isNumeral c = true := hdigits c (List.mem_cons_self ..)
    rw [htext, List.cons_append]
    unfold wholePart?
    split
    · next heq => exact absurd (List.cons.inj heq).1 hc
    · next heq =>
      obtain ⟨rfl, rfl⟩ := List.cons.inj heq
      rw [if_pos hfirst, htake, hdrop]
    · next heq => cases heq

theorem fractionPart_of_ends (hrest : Ends rest) : fractionPart rest = ([], rest) := by
  unfold fractionPart
  split
  · rcases hrest '.' rfl with h | h <;> cases h
  · rfl

theorem exponentPart_of_ends (hrest : Ends rest) : exponentPart rest = (none, rest) := by
  unfold exponentPart
  split
  · rfl
  · next c after =>
    rcases hrest c rfl with rfl | rfl <;> rfl

/-- A written integer is read back. -/
theorem readNumber_intText (i : Int)
    (hlength : (Decimal.natText i.natAbs).length ≤ Decimal.maxDigits) (hrest : Ends rest) :
    readNumber ((Decimal.intText i).toList ++ rest) = .ok (.int i, rest) := by
  have hwhole := wholePart?_natText i.natAbs hrest
  have hshort : ¬ Decimal.maxDigits < (Decimal.natText i.natAbs).length := by omega
  unfold Decimal.intText readNumber
  rw [String.toList_ofList]
  by_cases hnegative : i < 0
  · have hvalue : Decimal.signed true i.natAbs = i := by
      simp only [Decimal.signed, if_true]
      omega
    rw [if_pos hnegative, List.cons_append]
    simp only [hwhole, fractionPart_of_ends hrest, exponentPart_of_ends hrest, hshort,
      numeralsValue_natText, hvalue]
    rfl
  · have hvalue : Decimal.signed false i.natAbs = i := by
      simp only [Decimal.signed, Bool.false_eq_true, if_false]
      omega
    have hunsigned : ∀ cs, Decimal.natText i.natAbs ++ rest ≠ '-' :: cs := by
      intro cs heq
      cases htext : Decimal.natText i.natAbs with
      | nil => exact Nat.toDigits_ne_nil htext
      | cons c ds =>
        rw [htext, List.cons_append] at heq
        have hc : isNumeral c := isNumeral_of_mem_natText c (htext ▸ List.mem_cons_self ..)
        rw [(List.cons.inj heq).1] at hc
        exact absurd hc (by decide)
    rw [if_neg hnegative]
    split
    next negative unsigned hsign =>
      split at hsign
      · next cs heq => exact absurd heq (hunsigned cs)
      · cases hsign
        simp only [hwhole, fractionPart_of_ends hrest, exponentPart_of_ends hrest, hshort,
          numeralsValue_natText, hvalue]
        rfl

end Rest

end Colloquy.Json
