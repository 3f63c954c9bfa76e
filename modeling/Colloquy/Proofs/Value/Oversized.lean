import Colloquy.Proofs.Decimal.Beyond
import Colloquy.Value.Stored

/-!
# Why stored values cannot be read

Data that stands for no value is of a wrong type or has a wrong content, so far as a reader
expects defects at all. There is one other reason: an integer that no double is near to stands
where a float or a component of a vector is read. `Oversized` lists the three ways in which that
happens, with the misfit that comes of each. `readPayload_unexpected_iff` says that these are all.
-/

namespace Colloquy.Value

/-! ## Expected defects -/

/-- A misfit of the type or of the content of some data. -/
def Misfit.Expected (misfit : Misfit) : Prop :=
  misfit.class = .type ∨ misfit.class = .content

/-- A defect of the type or of the content of some data. -/
def Defect.Expected (defect : Defect) : Prop :=
  defect.class = .type ∨ defect.class = .content

theorem Misfit.not_expected {misfit : Misfit} (htype : misfit.class ≠ .type)
    (hcontent : misfit.class ≠ .content) : ¬ misfit.Expected :=
  not_or.2 ⟨htype, hcontent⟩

/-- A failure with something expected is no other failure. -/
theorem not_unexpected_error {ε α : Type} {Expected : ε → Prop} {found other : ε}
    (h : Expected found) :
    ¬ ((Except.error found : Except ε α) = .error other ∧ ¬ Expected other) := by
  rintro ⟨heq, hunexpected⟩
  cases heq
  exact hunexpected h

/-- A success is no failure. -/
theorem not_unexpected_ok {ε α : Type} {P : Prop} {value : α} {other : ε} :
    ¬ ((Except.ok value : Except ε α) = .error other ∧ P) := by
  rintro ⟨heq, -⟩
  cases heq

/-! ## Numbers -/

/-- Data that counts as a number. -/
inductive Numeric : Json → Prop
  | bool (b : Bool) : Numeric (.bool b)
  | int (i : Int) : Numeric (.int i)
  | float (x : Float) : Numeric (.float x)

theorem isNumber_ofJson_iff {item : Json} :
    (Source.ofJson item).isNumber = true ↔ Numeric item := by
  constructor
  · intro h
    cases item with
    | bool b => exact .bool b
    | int i => exact .int i
    | float x => exact .float x
    | null => cases h
    | text s => cases h
    | array items => cases h
    | object entries => cases h
  · rintro (_ | _ | _) <;> rfl

/-- A number is too large for a double exactly if it is an integer beyond them. -/
theorem toFloat?_ofJson_eq_none_iff {item : Json} (h : Numeric item) :
    (Source.ofJson item).toFloat? = none ↔ ∃ i, item = .int i ∧ Binary.Beyond i := by
  cases h with
  | bool b =>
    have hsmall : Source.toFloat? (.int (if b then 1 else 0)) ≠ none := by
      cases b <;> decide
    exact iff_of_false hsmall (by simp)
  | int i =>
    rw [Source.ofJson, Source.toFloat?, Binary.ofInt?_eq_none_iff]
    constructor
    · intro hbeyond
      exact ⟨i, rfl, hbeyond⟩
    · rintro ⟨_, hitem, hbeyond⟩
      cases hitem
      exact hbeyond
  | float x => exact iff_of_false (by simp [Source.ofJson, Source.toFloat?]) (by simp)

/-- Numbers among which one is an integer beyond the doubles. -/
structure Overlarge (items : List Json) : Prop where
  numeric : ∀ item ∈ items, Numeric item
  beyond : ∃ i, Json.int i ∈ items ∧ Binary.Beyond i

theorem ofItems_eq_map (items : List Json) : Source.ofItems items = items.map Source.ofJson := by
  induction items with
  | nil => rfl
  | cons item items ih => rw [Source.ofItems, ih, List.map_cons]

theorem all_isNumber_iff {items : List Json} :
    (Source.ofItems items).all Source.isNumber = true ↔ ∀ item ∈ items, Numeric item := by
  simp [ofItems_eq_map, isNumber_ofJson_iff]

theorem mapM_eq_none_iff {α β : Type} {f : α → Option β} {items : List α} :
    items.mapM f = none ↔ ∃ item ∈ items, f item = none := by
  induction items with
  | nil => simp
  | cons item items ih =>
    rw [List.mapM_cons]
    cases hitem : f item with
    | none => simp [hitem]
    | some b =>
      cases hitems : items.mapM f with
      | none => simpa [hitem, hitems] using ih.1 hitems
      | some bs =>
        have hnone : ¬ ∃ item ∈ items, f item = none := by
          rw [← ih, hitems]
          simp
        simpa [hitem] using hnone

/-- Numbers make no list of doubles exactly if one of them is beyond the doubles. -/
theorem mapM_toFloat?_eq_none_iff {items : List Json} (h : ∀ item ∈ items, Numeric item) :
    (Source.ofItems items).mapM Source.toFloat? = none ↔ Overlarge items := by
  rw [mapM_eq_none_iff, ofItems_eq_map]
  constructor
  · rintro ⟨source, hsource, hnone⟩
    obtain ⟨item, hitem, rfl⟩ := List.mem_map.1 hsource
    obtain ⟨i, rfl, hbeyond⟩ := (toFloat?_ofJson_eq_none_iff (h item hitem)).1 hnone
    exact ⟨h, i, hitem, hbeyond⟩
  · rintro ⟨-, i, hitem, hbeyond⟩
    exact ⟨_, List.mem_map_of_mem hitem,
      (toFloat?_ofJson_eq_none_iff (h _ hitem)).2 ⟨i, rfl, hbeyond⟩⟩

/-! ## Vectors -/

/-- The kinds of vectors. -/
def Kind.IsVector (kind : Kind) : Prop :=
  kind = .vec2 ∨ kind = .vec3

instance : DecidablePred Kind.IsVector := fun kind =>
  inferInstanceAs (Decidable (kind = .vec2 ∨ kind = .vec3))

theorem expected_numbersBefore {kind : Kind} {marks : List (List Char)} {cs : List Char}
    {misfit : Misfit} (h : numbersBefore kind marks cs = .error misfit) : misfit.Expected := by
  induction marks generalizing cs with
  | nil => cases h
  | cons mark marks ih =>
    rw [numbersBefore] at h
    split at h
    · cases h
      exact .inr rfl
    next number rest hcut =>
    split at h
    · cases h
      exact .inr rfl
    next x hnumber =>
    cases hrest : numbersBefore kind marks rest with
    | ok xs =>
      rw [hrest] at h
      cases h
    | error found =>
      rw [hrest] at h
      cases h
      exact ih hrest

theorem expected_readComponents {kind : Kind} {text : String} {misfit : Misfit}
    (h : readComponents kind text = .error misfit) : misfit.Expected := by
  unfold readComponents at h
  split at h
  · cases h
    exact .inr rfl
  · exact expected_numbersBefore h

/-- The components of a vector from arguments that begin with neither a list nor a text. -/
theorem components_of_head {kind : Kind} {source : Source} {sources : List Source}
    (hlist : ∀ items, source ≠ .list items) (htext : ∀ s, source ≠ .text s) :
    components kind (source :: sources) =
      if (source :: sources).all Source.isNumber &&
          ((source :: sources).length = 1 || (source :: sources).length = kind.arity) then
        match (source :: sources).mapM Source.toFloat? with
        | some [x] => .ok (List.replicate kind.arity x)
        | some xs => .ok xs
        | none => .error (.componentOverflow kind)
      else .error (.vector kind) := by
  cases source with
  | list items => exact absurd rfl (hlist items)
  | text s => exact absurd rfl (htext s)
  | int i => rfl
  | float x => rfl
  | other => rfl

/-- Arguments that begin with neither a list nor a text fail for want of a double exactly if they
are numbers, as many as they should be, and one of them is beyond the doubles. -/
theorem components_direct_iff {kind : Kind} {item : Json} {items : List Json} {misfit : Misfit}
    (hlist : ∀ inner, item ≠ .array inner) (htext : ∀ s, item ≠ .text s) :
    (components kind (Source.ofItems (item :: items)) = .error misfit ∧ ¬ misfit.Expected) ↔
      ((item :: items).length = 1 ∨ (item :: items).length = kind.arity) ∧
        Overlarge (item :: items) ∧ misfit = .componentOverflow kind := by
  have hhead : ∀ inner, Source.ofJson item ≠ .list inner := by
    intro inner h
    cases item with
    | array inner => exact hlist inner rfl
    | _ => cases h
  have hhead' : ∀ s, Source.ofJson item ≠ .text s := by
    intro s h
    cases item with
    | text s => exact htext s rfl
    | _ => cases h
  have hlength : (Source.ofItems (item :: items)).length = (item :: items).length := by
    rw [ofItems_eq_map, List.length_map]
  rw [hlength.symm, Source.ofItems, components_of_head hhead hhead', ← Source.ofItems, hlength]
  by_cases hnumbers : ∀ number ∈ item :: items, Numeric number
  · have hall := all_isNumber_iff.2 hnumbers
    by_cases hcount : (item :: items).length = 1 ∨ (item :: items).length = kind.arity
    · rw [if_pos (by simpa [hall] using hcount)]
      cases hfloats : (Source.ofItems (item :: items)).mapM Source.toFloat? with
      | none =>
        have hlarge := (mapM_toFloat?_eq_none_iff hnumbers).1 hfloats
        constructor
        · rintro ⟨h, -⟩
          cases h
          exact ⟨hcount, hlarge, rfl⟩
        · rintro ⟨-, -, rfl⟩
          exact ⟨rfl, Misfit.not_expected nofun nofun⟩
      | some xs =>
        have hfits : ¬ Overlarge (item :: items) := by
          rw [← mapM_toFloat?_eq_none_iff hnumbers, hfloats]
          simp
        refine iff_of_false ?_ fun h => hfits h.2.1
        split
        · exact not_unexpected_ok
        · exact not_unexpected_ok
        · simp_all
    · rw [if_neg (by simpa [hall] using hcount)]
      exact iff_of_false (not_unexpected_error (.inr rfl)) fun h => hcount h.1
  · have hall : (Source.ofItems (item :: items)).all Source.isNumber ≠ true :=
      fun h => hnumbers (all_isNumber_iff.1 h)
    rw [if_neg (by simp [hall])]
    exact iff_of_false (not_unexpected_error (.inr rfl)) fun h => hnumbers h.2.1.numeric

/-- A list as the first argument fails for want of a double exactly if it holds as many numbers as
there are components, and one of them is beyond the doubles. -/
theorem components_listed_iff {kind : Kind} {inner : List Json} {sources : List Source}
    {misfit : Misfit} :
    (components kind (.list (Source.ofItems inner) :: sources) = .error misfit ∧
      ¬ misfit.Expected) ↔
      inner.length = kind.arity ∧ Overlarge inner ∧ misfit = .overflow := by
  have hlength : (Source.ofItems inner).length = inner.length := by
    rw [ofItems_eq_map, List.length_map]
  rw [components, hlength]
  by_cases hshape : inner.length = kind.arity ∧ ∀ number ∈ inner, Numeric number
  · obtain ⟨hcount, hnumbers⟩ := hshape
    rw [if_pos (by simp [hcount, all_isNumber_iff.2 hnumbers])]
    cases hfloats : (Source.ofItems inner).mapM Source.toFloat? with
    | none =>
      have hlarge := (mapM_toFloat?_eq_none_iff hnumbers).1 hfloats
      constructor
      · rintro ⟨h, -⟩
        cases h
        exact ⟨hcount, hlarge, rfl⟩
      · rintro ⟨-, -, rfl⟩
        exact ⟨rfl, Misfit.not_expected nofun nofun⟩
    | some xs =>
      have hfits : ¬ Overlarge inner := by
        rw [← mapM_toFloat?_eq_none_iff hnumbers, hfloats]
        simp
      exact iff_of_false not_unexpected_ok fun h => hfits h.2.1
  · rw [if_neg (by simpa [← all_isNumber_iff] using hshape)]
    exact iff_of_false (not_unexpected_error (.inr rfl)) fun h => hshape ⟨h.1, h.2.1.numeric⟩

/-- A vector is made unless there are too many arguments or its components fail. -/
theorem makeVector_unexpected_iff {kind : Kind} {arguments : List Source} {misfit : Misfit} :
    (makeVector kind arguments = .error misfit ∧ ¬ misfit.Expected) ↔
      arguments.length ≤ kind.arity ∧ components kind arguments = .error misfit ∧
      ¬ misfit.Expected := by
  unfold makeVector
  by_cases hmany : kind.arity < arguments.length
  · rw [if_pos hmany]
    exact iff_of_false (not_unexpected_error (.inl rfl)) fun h => absurd h.1 (by omega)
  · rw [if_neg hmany]
    cases hcomponents : components kind arguments with
    | error found =>
      constructor
      · rintro ⟨h, hunexpected⟩
        cases h
        exact ⟨by omega, rfl, hunexpected⟩
      · rintro ⟨-, h, hunexpected⟩
        cases h
        exact ⟨rfl, hunexpected⟩
    | ok xs =>
      refine iff_of_false ?_ fun h => by cases h.2.1
      cases hvalue : ofComponents? xs with
      | some value =>
        simp only [bind, Except.bind, hvalue]
        exact not_unexpected_ok
      | none =>
        simp only [bind, Except.bind, hvalue]
        exact not_unexpected_error (.inr rfl)

/-! ## Colours -/

theorem colorOr_eq_error {misfit found : Misfit} {value? : Option Value}
    (h : colorOr misfit value? = .error found) : found = misfit := by
  cases value? with
  | some value => cases h
  | none =>
    cases h
    rfl

theorem expected_makeColor {palette : Palette} {arguments : List Source} {misfit : Misfit}
    (h : makeColor palette arguments = .error misfit) : misfit.Expected := by
  unfold makeColor at h
  split at h
  · cases h
    exact .inl rfl
  · exact colorOr_eq_error h ▸ .inr rfl
  · exact colorOr_eq_error h ▸ .inr rfl
  · exact colorOr_eq_error h ▸ .inr rfl
  · cases h
    exact .inl rfl
  · split at h
    · cases h
      exact .inl rfl
    · exact colorOr_eq_error h ▸ .inr rfl

/-! ## Payloads -/

/-- An integer beyond the doubles stands in a payload where a double is read: as a float, in a
list that is the first argument of a vector, or as an argument of a vector itself. The misfit is
the one that comes of it. -/
inductive Oversized : Kind → Json → Misfit → Prop
  | float {i : Int} : Binary.Beyond i → Oversized .float (.int i) .overflow
  | listed {kind : Kind} {inner others : List Json} :
    kind.IsVector → others.length < kind.arity → inner.length = kind.arity → Overlarge inner →
    Oversized kind (.array (.array inner :: others)) .overflow
  | direct {kind : Kind} {items : List Json} :
    kind.IsVector → items.length = 1 ∨ items.length = kind.arity → Overlarge items →
    Oversized kind (.array items) (.componentOverflow kind)

theorem expected_readPlain {kind : Kind} {payload : Json} {defect : Defect}
    (h : readPlain kind payload = .error defect) : defect.Expected := by
  unfold readPlain at h
  split at h
  · cases h
    exact .inl rfl
  · split at h
    · cases h
    · cases h
      exact .inr rfl

theorem readUnfolded_unexpected_iff {kind : Kind} {make : List Source → Except Misfit Value}
    {payload : Json} {defect : Defect} :
    (readUnfolded kind make payload = .error defect ∧ ¬ defect.Expected) ↔
      ∃ arguments misfit, arguments? payload = some arguments ∧
        (make arguments = .error misfit ∧ ¬ misfit.Expected) ∧ defect = .misfit misfit := by
  unfold readUnfolded
  cases harguments : arguments? payload with
  | none => exact iff_of_false (not_unexpected_error (.inl rfl)) (by simp)
  | some arguments =>
    show ((make arguments).mapError Defect.misfit = .error defect ∧ _) ↔ _
    cases hmake : make arguments with
    | ok value =>
      refine iff_of_false not_unexpected_ok ?_
      rintro ⟨_, _, h, ⟨hmade, -⟩, -⟩
      cases h
      rw [hmake] at hmade
      cases hmade
    | error misfit =>
      constructor
      · rintro ⟨h, hunexpected⟩
        cases h
        exact ⟨arguments, misfit, rfl, ⟨hmake, hunexpected⟩, rfl⟩
      · rintro ⟨_, found, h, ⟨hmade, hunexpected⟩, rfl⟩
        cases h
        obtain rfl : misfit = found := Except.error.inj (hmake.symm.trans hmade)
        exact ⟨rfl, hunexpected⟩

/-- The components of a vector are read from a payload that is a text or an object without a
number that could be too large. -/
theorem expected_components_texts {kind : Kind} {texts : List String} {misfit : Misfit}
    (h : components kind (texts.map Source.text) = .error misfit) : misfit.Expected := by
  cases texts with
  | nil => cases h
  | cons s texts =>
    rw [List.map_cons, components] at h
    exact expected_readComponents h

/-- The components of a vector from the items of an array. -/
theorem components_items_iff {kind : Kind} (hkind : kind.IsVector) {items : List Json}
    {misfit : Misfit} :
    (items.length ≤ kind.arity ∧ components kind (Source.ofItems items) = .error misfit ∧
        ¬ misfit.Expected) ↔
      Oversized kind (.array items) misfit := by
  have hvector : kind ≠ .float := by
    rcases hkind with rfl | rfl <;> decide
  have harity : 1 ≤ kind.arity := by
    rcases hkind with rfl | rfl <;> decide
  cases items with
  | nil =>
    refine iff_of_false (fun h => by cases h.2.1) ?_
    rintro (_ | _ | ⟨-, -, hlarge⟩)
    obtain ⟨i, hi, -⟩ := hlarge.beyond
    cases hi
  | cons item items =>
    by_cases hlist : ∃ inner, item = .array inner
    · obtain ⟨inner, rfl⟩ := hlist
      refine (and_congr_right fun _ => components_listed_iff).trans ?_
      constructor
      · rintro ⟨hcount, hinner, hlarge, rfl⟩
        exact .listed hkind hcount hinner hlarge
      · rintro (_ | ⟨-, hcount, hinner, hlarge⟩ | ⟨-, -, hlarge⟩)
        · exact ⟨hcount, hinner, hlarge, rfl⟩
        · cases hlarge.numeric _ (List.mem_cons_self ..)
    · by_cases htext : ∃ s, item = .text s
      · obtain ⟨s, rfl⟩ := htext
        refine iff_of_false ?_ ?_
        · rintro ⟨-, h, hunexpected⟩
          exact hunexpected (expected_readComponents h)
        · rintro (_ | _ | ⟨-, -, hlarge⟩)
          cases hlarge.numeric _ (List.mem_cons_self ..)
      · have hhead : (∀ inner, item ≠ .array inner) ∧ ∀ s, item ≠ .text s :=
          ⟨fun inner h => hlist ⟨inner, h⟩, fun s h => htext ⟨s, h⟩⟩
        refine (and_congr_right fun _ => components_direct_iff hhead.1 hhead.2).trans ?_
        constructor
        · rintro ⟨-, hcount, hlarge, rfl⟩
          exact .direct hkind hcount hlarge
        · rintro (_ | ⟨-, hcount, hinner, hlarge⟩ | ⟨-, hcount, hlarge⟩)
          · exact absurd ⟨_, rfl⟩ hlist
          · exact ⟨by omega, hcount, hlarge, rfl⟩

theorem readVector_unexpected_iff {kind : Kind} (hkind : kind.IsVector) {payload : Json}
    {defect : Defect} :
    (readUnfolded kind (makeVector kind) payload = .error defect ∧ ¬ defect.Expected) ↔
      ∃ misfit, Oversized kind payload misfit ∧ defect = .misfit misfit := by
  have htexts : ∀ (texts : List String) (misfit : Misfit),
      ¬ (makeVector kind (texts.map Source.text) = .error misfit ∧ ¬ misfit.Expected) := by
    intro texts misfit h
    obtain ⟨-, hcomponents, hunexpected⟩ := makeVector_unexpected_iff.1 h
    exact hunexpected (expected_components_texts hcomponents)
  rw [readUnfolded_unexpected_iff]
  constructor
  · rintro ⟨arguments, misfit, harguments, hmake, rfl⟩
    refine ⟨misfit, ?_, rfl⟩
    cases payload with
    | array items =>
      cases harguments
      exact (components_items_iff hkind).1 (by
        simpa [ofItems_eq_map] using makeVector_unexpected_iff.1 hmake)
    | text s =>
      cases harguments
      have h := htexts (s.toList.map fun c => String.ofList [c]) misfit
      rw [List.map_map] at h
      exact absurd hmake h
    | object entries =>
      cases harguments
      have h := htexts (entries.map (·.1)) misfit
      rw [List.map_map] at h
      exact absurd hmake h
    | _ => cases harguments
  · rintro ⟨misfit, hoversized, rfl⟩
    obtain ⟨items, rfl⟩ : ∃ items, payload = .array items := by
      cases hoversized with
      | float => rcases hkind with h | h <;> cases h
      | listed => exact ⟨_, rfl⟩
      | direct => exact ⟨_, rfl⟩
    refine ⟨Source.ofItems items, misfit, rfl, makeVector_unexpected_iff.2 ?_, rfl⟩
    simpa [ofItems_eq_map] using (components_items_iff hkind).2 hoversized

/-- Only a float and a vector can be oversized. -/
theorem Oversized.kind_eq {kind : Kind} {payload : Json} {misfit : Misfit}
    (h : Oversized kind payload misfit) :
    kind = .float ∨ kind.IsVector := by
  cases h with
  | float => exact .inl rfl
  | listed hkind => exact .inr hkind
  | direct hkind => exact .inr hkind

/-- A payload that is read plainly stands for no value for an expected reason, and is not
oversized. -/
theorem readPlain_unexpected_iff {kind : Kind} {payload : Json} {defect : Defect}
    (h : ∀ misfit, ¬ Oversized kind payload misfit) :
    (readPlain kind payload = .error defect ∧ ¬ defect.Expected) ↔
      ∃ misfit, Oversized kind payload misfit ∧ defect = .misfit misfit := by
  constructor
  · rintro ⟨hread, hunexpected⟩
    exact absurd (expected_readPlain hread) hunexpected
  · rintro ⟨misfit, hoversized, -⟩
    exact absurd hoversized (h misfit)

/-- A payload stands for no value of a kind for another reason than its type or its content
exactly if it is oversized. -/
theorem readPayload_unexpected_iff {palette : Palette} {kind : Kind} {payload : Json}
    {defect : Defect} :
    (readPayload palette kind payload = .error defect ∧ ¬ defect.Expected) ↔
      ∃ misfit, Oversized kind payload misfit ∧ defect = .misfit misfit := by
  have hplain : kind ≠ .float → ¬ kind.IsVector → ∀ misfit, ¬ Oversized kind payload misfit := by
    intro hfloat hvector misfit h
    exact h.kind_eq.elim hfloat hvector
  cases kind with
  | bool => exact readPlain_unexpected_iff (hplain (by decide) (by decide))
  | int => exact readPlain_unexpected_iff (hplain (by decide) (by decide))
  | text => exact readPlain_unexpected_iff (hplain (by decide) (by decide))
  | vec2 => exact readVector_unexpected_iff (.inl rfl)
  | vec3 => exact readVector_unexpected_iff (.inr rfl)
  | color =>
    rw [readPayload, readUnfolded_unexpected_iff]
    constructor
    · rintro ⟨_, _, -, ⟨hmake, hunexpected⟩, -⟩
      exact absurd (expected_makeColor hmake) hunexpected
    · rintro ⟨misfit, hoversized, -⟩
      exact absurd hoversized (hplain (by decide) (by decide) misfit)
  | float =>
    cases payload with
    | int i =>
      rw [readPayload]
      cases hfloat : Binary.ofInt? i with
      | none =>
        have hbeyond := Binary.ofInt?_eq_none_iff.1 hfloat
        constructor
        · rintro ⟨h, -⟩
          cases h
          exact ⟨.overflow, .float hbeyond, rfl⟩
        · rintro ⟨_, hoversized, rfl⟩
          cases hoversized with
          | float =>
            have hunexpected : ¬ Misfit.overflow.Expected := Misfit.not_expected nofun nofun
            exact ⟨rfl, hunexpected⟩
      | some x =>
        refine iff_of_false not_unexpected_ok ?_
        rintro ⟨_, ⟨hbeyond⟩, -⟩
        rw [Binary.ofInt?_eq_none_iff.2 hbeyond] at hfloat
        cases hfloat
    | array items =>
      rw [readPayload]
      · refine readPlain_unexpected_iff ?_
        rintro misfit (_ | ⟨h | h⟩ | ⟨h | h⟩) <;> cases h
      all_goals simp
    | null | bool | float | text | object =>
      rw [readPayload]
      · refine readPlain_unexpected_iff ?_
        rintro misfit h
        cases h
      all_goals simp

end Colloquy.Value
