import Colloquy.Proofs.Value.Hashing
import Colloquy.Store
import Mathlib.Data.List.Forall2

/-!
# Stored variables are read again

A value is found again in its stored form (`ofJson_toJson`): the components of vectors and the
parts of colours go through the same makers as any other list of arguments.

`Decodes` says what the entries of an object stand for, entry by entry and in their order. A store
is read from entries exactly if each of them stands for a value (`ofEntries_eq_ok_iff`), and then
holds just these; otherwise the first that does not is to blame (`ofEntries_eq_error_iff`).

What is read does not always equal what was stored, though nothing has changed: a vector equals
another one only if all components are finite (`roundTrips_iff`).
-/

namespace Colloquy

/-! ## Values -/

namespace Value

theorem readKind_eq_ok {name : Json} {kind : Kind} (h : readKind name = .ok kind) :
    name = .text kind.name := by
  unfold readKind at h
  split at h
  next s =>
    split at h
    · next found hfound =>
      cases h
      have hnamed := List.find?_some hfound
      rw [beq_iff_eq] at hnamed
      rw [hnamed]
    · cases h
  · cases h

/-- Data names a kind and gives a payload. Other entries do not matter. -/
structure Tagged (data : Json) (kind : Kind) (payload : Json) : Prop where
  kind : data.get? "type" = some (.text kind.name)
  payload : data.get? "value" = some payload

/-- Data with a kind and a payload is read as a payload of that kind. -/
theorem ofJson_tagged {data : Json} {kind : Kind} {payload : Json} (h : Tagged data kind payload)
    (palette : Palette) : ofJson data palette = readPayload palette kind payload := by
  cases data with
  | object entries => simp only [ofJson, h.kind, readKind, Kind.ofName?_name, h.payload]
  | _ => cases h.kind

/-- Only data with a kind and a payload is read. -/
theorem tagged_of_ofJson {data : Json} {palette : Palette} {value : Value}
    (h : ofJson data palette = .ok value) :
    ∃ kind payload, Tagged data kind payload := by
  cases data with
  | object entries =>
    rw [ofJson] at h
    split at h
    · cases h
    next name hname =>
    split at h
    · cases h
    next kind hkind =>
    split at h
    · cases h
    next payload hpayload =>
    exact ⟨kind, payload, by rw [hname, readKind_eq_ok hkind], hpayload⟩
  | _ => cases h

theorem tagged_toJson (kind : Kind) (payload : Json) :
    Tagged (.object [("type", .text kind.name), ("value", payload)]) kind payload :=
  ⟨by simp [Json.get?, Entries.find?], by simp [Json.get?, Entries.find?]⟩

/-- A part of a colour is found again in its number. -/
theorem channel?_toNat (part : UInt8) : Source.channel? (.int part.toNat) = some part := by
  have hlt : part.toNat < 256 := part.toNat_lt
  have hinside : (0 ≤ (part.toNat : Int) && (part.toNat : Int) ≤ 255) = true := by
    rw [Bool.and_eq_true, decide_eq_true_eq, decide_eq_true_eq]
    omega
  rw [Source.channel?, if_pos hinside, Int.toNat_natCast, UInt8.ofNat_toNat]

/-- Four parts make the colour that they are the parts of. -/
theorem makeColor_channels (palette : Palette) (red green blue alpha : UInt8) :
    makeColor palette ([red, green, blue, alpha].map fun part => .int part.toNat) =
      .ok (.color red green blue alpha) := by
  simp [makeColor, channel?_toNat, ofChannels?, colorOr]

/-- A value is read from its stored form. -/
theorem ofJson_toJson (value : Value) (palette : Palette) :
    ofJson value.toJson palette = .ok value := by
  cases value with
  | bool b => exact ofJson_tagged (tagged_toJson .bool (.bool b)) palette
  | int i => exact ofJson_tagged (tagged_toJson .int (.int i)) palette
  | float x => exact ofJson_tagged (tagged_toJson .float (.float x)) palette
  | vec2 x y => exact ofJson_tagged (tagged_toJson .vec2 (.array [.float x, .float y])) palette
  | vec3 x y z =>
      exact ofJson_tagged (tagged_toJson .vec3 (.array [.float x, .float y, .float z])) palette
  | color r g b a =>
    refine (ofJson_tagged (tagged_toJson .color _) palette).trans ?_
    show (makeColor palette ([r, g, b, a].map fun part => .int part.toNat)).mapError _ = _
    rw [makeColor_channels]
    rfl
  | text s => exact ofJson_tagged (tagged_toJson .text (.text s)) palette

/-- The components of a vector. -/
def vectorComponents : Value → List Float
  | .vec2 x y => [x, y]
  | .vec3 x y z => [x, y, z]
  | _ => []

/-- A value equals the one that is read from its stored form, unless it is a vector and not all of
its components are finite. -/
theorem roundTrips_iff (value : Value) :
    value.roundTrips = true ↔ ∀ x ∈ value.vectorComponents, x.isFinite = true := by
  rw [roundTrips, ofJson_toJson]
  cases value <;> simp [equalCopy, equal, vectorComponents, near_self_iff, and_assoc]

end Value

/-! ## Stores -/

namespace Store

variable {palette : Value.Palette}

/-- The entries of an object stand for variables: each for a value under its own name, in their
order. -/
def Decodes (palette : Value.Palette) (entries : List (String × Json))
    (values : Entries String Value) : Prop :=
  List.Forall₂
    (fun entry slot => slot.1 = entry.1 ∧ Value.ofJson entry.2 palette = .ok slot.2)
    entries values

/-- One entry more. -/
theorem foldlM_insert_cons (held : Store) (name : String) (data : Json)
    (entries : List (String × Json)) :
    ((name, data) :: entries).foldlM
        (fun store (name, data) => (Value.ofJson data palette).map (store.insert name)) held =
      match Value.ofJson data palette with
      | .error defect => .error defect
      | .ok value =>
        entries.foldlM
          (fun store (name, data) => (Value.ofJson data palette).map (store.insert name))
          (held.insert name value) := by
  rw [List.foldlM_cons]
  dsimp only
  cases Value.ofJson data palette <;> rfl

theorem foldlM_insert_eq_ok_iff {entries : List (String × Json)} {held store : Store} :
    entries.foldlM
        (fun store (name, data) => (Value.ofJson data palette).map (store.insert name)) held =
      .ok store ↔
      ∃ values, Decodes palette entries values ∧ store = held.enter values := by
  induction entries generalizing held with
  | nil =>
    constructor
    · intro h
      cases h
      exact ⟨[], .nil, rfl⟩
    · rintro ⟨values, hdecodes, rfl⟩
      cases hdecodes
      rfl
  | cons entry entries ih =>
    obtain ⟨name, data⟩ := entry
    rw [foldlM_insert_cons]
    cases hdata : Value.ofJson data palette with
    | error defect =>
      constructor
      · intro h
        cases h
      · rintro ⟨values, hdecodes, -⟩
        cases hdecodes with
        | cons hentry _ =>
          rw [hdata] at hentry
          cases hentry.2
    | ok value =>
      refine ih.trans ?_
      constructor
      · rintro ⟨values, hdecodes, rfl⟩
        exact ⟨(name, value) :: values, .cons ⟨rfl, hdata⟩ hdecodes, rfl⟩
      · rintro ⟨values, hdecodes, rfl⟩
        cases hdecodes with
        | @cons _ slot _ rest hentry hrest =>
          obtain ⟨name', value'⟩ := slot
          obtain ⟨rfl, hvalue⟩ := hentry
          obtain rfl : value = value' := Except.ok.inj (hdata.symm.trans hvalue)
          exact ⟨rest, hrest, rfl⟩

/-- A store is read from entries exactly if they stand for values, and these are entered one after
another. -/
theorem ofEntries_eq_ok_iff {entries : List (String × Json)} {store : Store} :
    ofEntries entries palette = .ok store ↔
      ∃ values, Decodes palette entries values ∧ store = Ledger.empty.enter values :=
  foldlM_insert_eq_ok_iff

/-- Reading fails exactly at the first entry that stands for no value. -/
theorem ofEntries_eq_error_iff {entries : List (String × Json)} {defect : Value.Defect} :
    ofEntries entries palette = .error defect ↔
      ∃ before name data after, entries = before ++ (name, data) :: after ∧
        (∀ entry ∈ before, ∃ value, Value.ofJson entry.2 palette = .ok value) ∧
        Value.ofJson data palette = .error defect := by
  unfold ofEntries
  generalize (Ledger.empty : Store) = held
  induction entries generalizing held with
  | nil =>
    constructor
    · intro h
      cases h
    · rintro ⟨before, name, data, after, hsplit, -⟩
      cases before <;> cases hsplit
  | cons entry entries ih =>
    obtain ⟨name, data⟩ := entry
    rw [foldlM_insert_cons]
    cases hdata : Value.ofJson data palette with
    | error found =>
      constructor
      · intro h
        cases h
        exact ⟨[], name, data, entries, rfl, by simp, hdata⟩
      · rintro ⟨before, name', data', after, hsplit, hbefore, hbad⟩
        cases before with
        | nil =>
          cases hsplit
          obtain rfl : found = defect := Except.error.inj (hdata.symm.trans hbad)
          rfl
        | cons first before =>
          obtain ⟨rfl, -⟩ := List.cons.inj hsplit
          obtain ⟨value, hvalue⟩ := hbefore _ (List.mem_cons_self ..)
          rw [hdata] at hvalue
          cases hvalue
    | ok value =>
      refine (ih (held.insert name value)).trans ?_
      constructor
      · rintro ⟨before, name', data', after, rfl, hbefore, hbad⟩
        refine ⟨(name, data) :: before, name', data', after, rfl, ?_, hbad⟩
        intro entry hentry
        rcases List.mem_cons.1 hentry with rfl | hentry
        · exact ⟨value, hdata⟩
        · exact hbefore entry hentry
      · rintro ⟨before, name', data', after, hsplit, hbefore, hbad⟩
        cases before with
        | nil =>
          cases hsplit
          rw [hdata] at hbad
          cases hbad
        | cons first before =>
          obtain ⟨-, hsplit⟩ := List.cons.inj hsplit
          exact ⟨before, name', data', after, hsplit,
            fun entry hentry => hbefore entry (List.mem_cons_of_mem _ hentry), hbad⟩

/-- The stored form of a store stands for its variables. -/
theorem decodes_toJson (palette : Value.Palette) (values : Entries String Value) :
    Decodes palette (values.map fun (name, value) => (name, value.toJson)) values := by
  induction values with
  | nil => exact .nil
  | cons slot values ih => exact .cons ⟨rfl, Value.ofJson_toJson slot.2 palette⟩ ih

/-- A store is read from its stored form: the same values under the same names in the same order. -/
theorem ofEntries_toJson (store : Store) (palette : Value.Palette) :
    ofEntries (store.entries.map fun (name, value) => (name, value.toJson)) palette = .ok store :=
  ofEntries_eq_ok_iff.2 ⟨_, decodes_toJson palette store.entries, store.enter_entries.symm⟩

/-- A store equals the one that is read from its stored form exactly if each of its values does. -/
theorem roundTrips_iff (store : Store) :
    store.roundTrips = true ↔ ∀ entry ∈ store.entries, entry.2.roundTrips = true := by
  unfold roundTrips toJson
  dsimp only
  rw [ofEntries_toJson]
  dsimp only
  rw [beq_self_eq_true, Bool.true_and, List.all_eq_true]
  refine forall₂_congr fun entry hentry => ?_
  rw [Value.roundTrips, Value.ofJson_toJson, Ledger.mem_entries_iff.1 hentry]
  rfl

end Store

end Colloquy
