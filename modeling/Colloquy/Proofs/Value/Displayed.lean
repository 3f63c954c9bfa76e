import Colloquy.Proofs.Decimal.Written
import Colloquy.Value.Parse

/-!
# Displayed values are read again

What a script writes as a value is read as an integer, as a finite float or as a text (`Parsed`),
and what such a value shows as can be written in the script again. An integer and a text come back
as they were. A float comes back unless it is a whole number, which shows as an integer and is one
from then on (`reentered`, `parse_display`).
-/

namespace Colloquy.Value

open Decimal Chars

variable {content : List Char}

/-- What a trimmed text is read as: an integer that is not too long, or else a finite float, or
else itself. -/
inductive Parsed (content : List Char) : Value → Prop
  | int {i : Int} :
    readInt content = .ok i → (natText i.natAbs).length ≤ maxDigits → Parsed content (.int i)
  | float {x : Float} : Binary.isFinite x = true → Parsed content (.float x)
  | text :
    ofContent content = .text (String.ofList content) →
    Parsed content (.text (String.ofList content))

theorem isFinite_of_readFloat? {x : Float} (h : readFloat? content = some x) :
    Binary.isFinite x = true := by
  unfold readFloat? at h
  obtain ⟨⟨negative, m, e⟩, -, hread⟩ := Option.bind_eq_some_iff.1 h
  dsimp only at hread
  split at hread
  · next hfinite =>
    cases hread
    exact hfinite
  · cases hread

theorem parsed_ofContent (content : List Char) : Parsed content (ofContent content) := by
  cases hint : readInt content with
  | ok i =>
    rw [ofContent, hint]
    exact .int hint (natText_length_of_readInt hint)
  | error failure =>
    cases hfloat : readFloat? content with
    | some x =>
      rw [ofContent, hint]
      dsimp only
      rw [hfloat]
      exact .float (isFinite_of_readFloat? hfloat)
    | none =>
      have htext : ofContent content = .text (String.ofList content) := by
        rw [ofContent, hint]
        dsimp only
        rw [hfloat]
      rw [htext]
      exact .text htext

/-! ## Reading what is shown -/

/-- An integer that is not too long is read from its own digits. -/
theorem parse_intText {i : Int} (h : (natText i.natAbs).length ≤ maxDigits) :
    parse (intText i) = .int i := by
  have htrimmed : IsTrimmed (intText i).toList := by
    obtain ⟨sign, negative, run, ds, hsign, hrun, -, heq, -⟩ := isInteger_intText h
    rw [heq]
    refine isTrimmed_of_forall fun c hc => ?_
    rcases List.mem_append.1 hc with hc | hc
    · exact hsign.not_isBlank c hc
    · exact hrun.not_isBlank c hc
  rw [parse, trim_of_isTrimmed htrimmed, ofContent, readInt_intText h]

/-- A finite float is read from its own text. -/
theorem parse_floatText {x : Float} (h : Binary.isFinite x = true) :
    parse (floatText x) = .float x := by
  have htrimmed : IsTrimmed (floatText x).toList := by
    obtain ⟨sign, negative, body, value, whole, part, tail, e, hsign, htext, hlayout, -⟩ :=
      exists_floatText h
    rw [htext]
    exact hlayout.isTrimmed hsign
  obtain ⟨failure, hint⟩ := readInt_floatText h
  rw [parse, trim_of_isTrimmed htrimmed, ofContent, hint]
  dsimp only
  rw [readFloat?_floatText h]

/-- What a value becomes when it is written as it shows: a float that is a whole number becomes an
integer. -/
def reentered : Value → Value
  | .float x =>
    match Binary.toInt? x with
    | some i => .int i
    | none => .float x
  | v => v

/-- A value shows as it did before it was written again. -/
theorem display_reentered (v : Value) : v.reentered.display = v.display := by
  cases v with
  | float x =>
    rw [reentered]
    split
    · next i hwhole => rw [display, display, displayText, hwhole]
    · rfl
  | _ => rfl

/-- What a value that has been read shows as is read as the value that it becomes. -/
theorem parse_display {v : Value} (h : Parsed content v) (htrimmed : IsTrimmed content) :
    parse v.display = v.reentered := by
  cases h with
  | int _ hlength => exact parse_intText hlength
  | @float x hfinite =>
    rw [display, displayText, reentered]
    cases hwhole : Binary.toInt? x with
    | some i => exact parse_intText (natText_length_of_toInt? hwhole)
    | none => exact parse_floatText hfinite
  | text htext =>
    rw [display, parse, String.toList_ofList, trim_of_isTrimmed htrimmed, htext]
    rfl

/-- What the value of a text shows as is read as a value that shows as the same again. An integer
and a text come back as they are, and no float is infinite or what is not a number. -/
theorem display_parse_stable (text : String) :
    (parse (parse text).display).display = (parse text).display ∧
      (∀ i, parse text = .int i → parse (parse text).display = .int i) ∧
      (∀ s, parse text = .text s → parse (parse text).display = .text s) ∧
      ∀ x, parse text = .float x → x.isNaN = false ∧ x.isInf = false := by
  have hparsed : Parsed (trim text.toList) (parse text) := parsed_ofContent _
  have hread := parse_display hparsed (isTrimmed_trim _)
  refine ⟨?_, ?_, ?_, ?_⟩
  · rw [hread, display_reentered]
  · intro i hi
    rw [hread, hi]
    rfl
  · intro s hs
    rw [hread, hs]
    rfl
  · intro x hx
    rw [hx] at hparsed
    cases hparsed with
    | float hfinite => exact Binary.not_special_of_isFinite hfinite

/-- A whole number shows without the point and the exponent that it was written with. -/
example : (parse " 1_5.0e+1 ").display = "150" := by
  decide

end Colloquy.Value
