import Colloquy.Json.Basic
import Colloquy.Json.Path

/-!
# Schemas

A schema says which JSON values are admitted. `violations` lists what is wrong with a value, and
`worst?` picks the violation that is reported: one with a shortest path, among those one with the
greatest path, and on the same path the first.
-/

namespace Colloquy.Json

/-- What is wrong with a part of a value. -/
inductive Fault where
  | wrongType (value : Json) (admitted : List String)
  | missing (name : String)
  | unexpected (names : List String)
  | emptyText
  | notListed (value : Json) (names : List String)

/-- A fault and where it is. -/
structure Violation where
  path : Path
  fault : Fault

/-- A fault of the value itself. -/
def here (fault : Fault) : Violation := ⟨[], fault⟩

/-- A violation in a part of the value. -/
def Violation.under (step : Step) (violation : Violation) : Violation :=
  { violation with path := step :: violation.path }

/-- Which values are admitted. -/
inductive Schema where
  /-- Every value. -/
  | any
  /-- A text that is not empty if `nonEmpty` is set. -/
  | text (nonEmpty : Bool)
  | textOrNull
  /-- An integer, or a float that stands for one. -/
  | integer
  /-- One of some texts. -/
  | oneOf (names : List String)
  /-- A list of admitted items. -/
  | array (item : Schema)
  /-- An object with the required names, in which the values under the known names are admitted, and
  without other names if it is closed. -/
  | object (required : List String) (closed : Bool) (known : List (String × Schema))
  /-- An object whose values are all admitted. -/
  | dictionary (value : Schema)

namespace Schema

/-- The faults of an object apart from its values: required names that are missing, and names that
are not known where no others may stand. -/
def nameFaults (required : List String) (closed : Bool) (known : List String)
    (entries : List (String × Json)) : List Fault :=
  let names := Entries.keys entries
  let unknown := names.filter (! known.contains ·)
  (required.filter (! names.contains ·)).map Fault.missing ++
    if closed && ! unknown.isEmpty then [Fault.unexpected (unknown.mergeSort (· ≤ ·))] else []

mutual

/-- What is wrong with a value. -/
def violations : Schema → Json → List Violation
  | .any, _ => []
  | .text nonEmpty, data =>
    match data with
    | .text s => if nonEmpty && s.isEmpty then [here .emptyText] else []
    | data => [here (.wrongType data ["string"])]
  | .textOrNull, data =>
    match data with
    | .text _ => []
    | .null => []
    | data => [here (.wrongType data ["string", "null"])]
  | .integer, data =>
    match data with
    | .int _ => []
    | .float x =>
      if (Binary.toInt? x).isSome then [] else [here (.wrongType data ["integer"])]
    | data => [here (.wrongType data ["integer"])]
  | .oneOf names, data =>
    match data with
    | .text s => if names.contains s then [] else [here (.notListed data names)]
    | data => [here (.notListed data names)]
  | .array item, data =>
    match data with
    | .array items =>
      items.zipIdx.flatMap fun (value, place) =>
        (violations item value).map (Violation.under (.index place))
    | data => [here (.wrongType data ["array"])]
  | .object required closed known, data =>
    match data with
    | .object entries =>
      (nameFaults required closed (known.map (·.1)) entries).map here ++
        knownViolations known entries
    | data => [here (.wrongType data ["object"])]
  | .dictionary value, data =>
    match data with
    | .object entries =>
      entries.flatMap fun (name, data) =>
        (violations value data).map (Violation.under (.name name))
    | data => [here (.wrongType data ["object"])]

/-- What is wrong with the values under the known names of an object. -/
def knownViolations : List (String × Schema) → List (String × Json) → List Violation
  | [], _ => []
  | (name, schema) :: known, entries =>
    (match Entries.find? entries name with
      | none => []
      | some value => (violations schema value).map (Violation.under (.name name))) ++
    knownViolations known entries

end

/-- Whether a violation is reported rather than another one that comes before it. -/
def outranks (new old : Violation) : Bool :=
  new.path.length < old.path.length ||
    (new.path.length == old.path.length && old.path.lt new.path)

/-- The violation that is reported. -/
def worst? : List Violation → Option Violation
  | [] => none
  | first :: rest =>
    some (rest.foldl (fun worst violation => if outranks violation worst then violation else worst)
      first)

/-- Checks a value. -/
def check (schema : Schema) (data : Json) : Except Violation Unit :=
  match worst? (schema.violations data) with
  | none => .ok ()
  | some violation => .error violation

end Schema

/-- Names as messages list them. -/
def quoteAll (names : List String) : String :=
  ", ".intercalate (names.map quote)

/-- A fault in words. -/
def Fault.message : Fault → String
  | .wrongType value admitted => s!"{value.display} is not of type {quoteAll admitted}"
  | .missing name => s!"{quote name} is a required property"
  | .unexpected names =>
    let verb := if names.length == 1 then "was" else "were"
    s!"Additional properties are not allowed ({quoteAll names} {verb} unexpected)"
  | .emptyText => "'' should be non-empty"
  | .notListed value names => s!"{value.display} is not one of [{quoteAll names}]"

end Colloquy.Json
