/-!
# Paths into JSON values

A path leads from a value to a part of it, through places of lists and names of objects.
-/

namespace Colloquy.Json

/-- One step into a value. -/
inductive Step where
  | index (place : Nat)
  | name (name : String)
  deriving DecidableEq, Repr

/-- Places are ordered by number, names by code point, and places stand before names. -/
def Step.lt : Step → Step → Bool
  | .index i, .index j => i < j
  | .name s, .name t => s < t
  | .index _, .name _ => true
  | .name _, .index _ => false

/-- The steps to a part of a value, the outermost first. -/
abbrev Path := List Step

/-- The order of paths by their first different steps; a path stands before its extensions. -/
def Path.lt : Path → Path → Bool
  | [], [] => false
  | [], _ :: _ => true
  | _ :: _, [] => false
  | a :: p, b :: q => a.lt b || (a == b && Path.lt p q)

end Colloquy.Json
