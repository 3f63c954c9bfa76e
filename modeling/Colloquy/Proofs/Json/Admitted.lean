import Colloquy.Json.Schema

/-!
# What schemas admit

`Schema.Admits` says of a value that it has the shape a schema describes, shape by shape and
without a list of violations. A value is admitted exactly if the check finds nothing
(`check_eq_ok_iff`). Whoever reads data that has passed a check takes its shape from there.
-/

namespace Colloquy.Json.Schema

mutual

/-- A value has the shape that a schema describes. -/
def Admits : Schema → Json → Prop
  | .any, _ => True
  | .text nonEmpty, data => ∃ s, data = .text s ∧ (nonEmpty = true → s ≠ "")
  | .textOrNull, data => data = .null ∨ ∃ s, data = .text s
  | .integer, data =>
    (∃ i, data = .int i) ∨ ∃ x, data = .float x ∧ (Binary.toInt? x).isSome = true
  | .oneOf names, data => ∃ s ∈ names, data = .text s
  | .array item, data => ∃ items, data = .array items ∧ ∀ value ∈ items, Admits item value
  | .object required closed known, data =>
    ∃ entries, data = .object entries ∧ (∀ name ∈ required, name ∈ Entries.keys entries) ∧
      (closed = true → ∀ name ∈ Entries.keys entries, name ∈ known.map (·.1)) ∧
      AdmitsKnown known entries
  | .dictionary value, data =>
    ∃ entries, data = .object entries ∧ ∀ entry ∈ entries, Admits value entry.2

/-- The values under known names have their shapes. -/
def AdmitsKnown : List (String × Schema) → List (String × Json) → Prop
  | [], _ => True
  | (name, schema) :: known, entries =>
    (∀ value, Entries.find? entries name = some value → Admits schema value) ∧
      AdmitsKnown known entries

end

/-- The names of an object are right exactly if none is missing and, in a closed object, none is
unknown. -/
theorem nameFaults_eq_nil_iff {required known : List String} {closed : Bool}
    {entries : List (String × Json)} :
    nameFaults required closed known entries = [] ↔
      (∀ name ∈ required, name ∈ Entries.keys entries) ∧
        (closed = true → ∀ name ∈ Entries.keys entries, name ∈ known) := by
  unfold nameFaults
  rw [List.append_eq_nil_iff, List.map_eq_nil_iff, List.filter_eq_nil_iff]
  refine and_congr (by simp) ?_
  cases closed with
  | false => simp
  | true => simp [List.filter_eq_nil_iff]

mutual

theorem violations_eq_nil_iff : ∀ (schema : Schema) (data : Json),
    schema.violations data = [] ↔ schema.Admits data
  | .any, data => by simp [violations, Admits]
  | .text nonEmpty, data => by
    cases data <;> cases nonEmpty <;> simp [violations, Admits]
  | .textOrNull, data => by
    cases data <;> simp [violations, Admits]
  | .integer, data => by
    cases data <;> simp [violations, Admits, Option.isSome_iff_ne_none]
  | .oneOf names, data => by
    cases data <;> simp [violations, Admits]
  | .array item, data => by
    cases data with
    | array items =>
      have hitem := violations_eq_nil_iff item
      simp only [violations, Admits, List.flatMap_eq_nil_iff, List.map_eq_nil_iff, hitem,
        Json.array.injEq, exists_eq_left']
      constructor
      · intro h value hvalue
        obtain ⟨place, hplace, rfl⟩ := List.mem_iff_getElem.1 hvalue
        exact h (items[place], place) (List.mem_zipIdx_iff_getElem?.2 (by simp [hplace]))
      · intro h entry hentry
        exact h entry.1 (List.fst_mem_of_mem_zipIdx hentry)
    | _ => simp [violations, Admits]
  | .object required closed known, data => by
    cases data with
    | object entries =>
      simp only [violations, Admits, List.append_eq_nil_iff, List.map_eq_nil_iff,
        nameFaults_eq_nil_iff, knownViolations_eq_nil_iff known entries, Json.object.injEq,
        exists_eq_left', and_assoc]
    | _ => simp [violations, Admits]
  | .dictionary value, data => by
    cases data with
    | object entries =>
      have hvalue := violations_eq_nil_iff value
      simp only [violations, Admits, List.flatMap_eq_nil_iff, List.map_eq_nil_iff, hvalue,
        Json.object.injEq, exists_eq_left']
    | _ => simp [violations, Admits]

theorem knownViolations_eq_nil_iff : ∀ (known : List (String × Schema))
    (entries : List (String × Json)), knownViolations known entries = [] ↔ AdmitsKnown known entries
  | [], entries => by simp [knownViolations, AdmitsKnown]
  | (name, schema) :: known, entries => by
    have hschema := violations_eq_nil_iff schema
    rw [knownViolations, AdmitsKnown, List.append_eq_nil_iff,
      knownViolations_eq_nil_iff known entries]
    refine and_congr_left fun _ => ?_
    cases Entries.find? entries name with
    | none => simp
    | some value => simp [hschema]

end

theorem worst?_eq_none_iff {violations : List Violation} :
    worst? violations = none ↔ violations = [] := by
  cases violations <;> simp [worst?]

/-- A check finds nothing exactly in the values that the schema admits. -/
theorem check_eq_ok_iff {schema : Schema} {data : Json} :
    schema.check data = .ok () ↔ schema.Admits data := by
  rw [← violations_eq_nil_iff, ← worst?_eq_none_iff, check]
  cases worst? (schema.violations data) <;> simp

/-! ## The shape of admitted objects -/

variable {required : List String} {closed : Bool} {known : List (String × Schema)}
  {entries : List (String × Json)} {data : Json} {name : String} {schema : Schema}

theorem admitsKnown_iff :
    AdmitsKnown known entries ↔
      ∀ field ∈ known, ∀ value, Entries.find? entries field.1 = some value →
        field.2.Admits value := by
  induction known with
  | nil => exact iff_of_true trivial (List.forall_mem_nil _)
  | cons field known ih =>
    rw [AdmitsKnown, List.forall_mem_cons, ih]

/-- An object is admitted exactly if it has the required names, no unknown one if it is closed,
and values of the right shapes under the known ones. -/
theorem admits_object_iff :
    (object required closed known).Admits data ↔
      (∃ entries, data = .object entries) ∧
        (∀ name ∈ required, ∃ value, data.get? name = some value) ∧
        (closed = true → ∀ name value, data.get? name = some value → name ∈ known.map (·.1)) ∧
          ∀ field ∈ known, ∀ value, data.get? field.1 = some value → field.2.Admits value := by
  rw [Admits]
  constructor
  · intro h
    obtain ⟨entries, rfl, hrequired, hclosed, hknown⟩ := h
    exact ⟨⟨entries, rfl⟩, fun name hname => Entries.exists_find? (hrequired name hname),
      fun hclose name value hvalue => hclosed hclose name (Entries.mem_keys_of_find? hvalue),
      admitsKnown_iff.1 hknown⟩
  · intro h
    obtain ⟨⟨entries, rfl⟩, hrequired, hclosed, hknown⟩ := h
    refine ⟨entries, rfl, fun name hname => ?_, fun hclose name hname => ?_,
      admitsKnown_iff.2 hknown⟩
    · obtain ⟨value, hvalue⟩ := hrequired name hname
      exact Entries.mem_keys_of_find? hvalue
    · obtain ⟨value, hvalue⟩ := Entries.exists_find? hname
      exact hclosed hclose name value hvalue

/-- Under a required name, an admitted object has a value of the shape that the name has. -/
theorem exists_get?_of_admits (h : (object required closed known).Admits data)
    (hname : name ∈ required) (hknown : (name, schema) ∈ known) :
    ∃ value, data.get? name = some value ∧ schema.Admits value := by
  obtain ⟨-, hrequired, -, hvalues⟩ := admits_object_iff.1 h
  obtain ⟨value, hvalue⟩ := hrequired name hname
  exact ⟨value, hvalue, hvalues (name, schema) hknown value hvalue⟩

end Colloquy.Json.Schema
