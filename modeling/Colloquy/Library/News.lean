/-!
# News of a library

What a library tells its bus while it loads scripts and graphs.
-/

namespace Colloquy.Library

/-- A report of a library. -/
inductive News where
  /-- Everything is loaded. -/
  | loaded (count : Nat)
  | compiled (id : String) (nodes warnings : Nat)
  | failed (path error : String)
  deriving DecidableEq, Repr

/-- The kinds of reports. -/
inductive News.Kind where
  | loaded
  | compiled
  | failed
  deriving DecidableEq, Repr

/-- The kind of a report. -/
def News.kind : News → News.Kind
  | .loaded _ => .loaded
  | .compiled .. => .compiled
  | .failed .. => .failed

/-- All kinds of reports. -/
def News.Kind.all : List News.Kind :=
  [.loaded, .compiled, .failed]

/-- The name of a kind of reports. -/
def News.Kind.name : News.Kind → String
  | .loaded => "RESOURCES_LOADED"
  | .compiled => "SCRIPT_COMPILED"
  | .failed => "SCRIPT_LOAD_FAILED"

/-- The details of a report under their names, in the order of the names. -/
def News.details : News → List (String × String)
  | .loaded count => [("count", Nat.repr count)]
  | .compiled id nodes warnings =>
    [("nodes", Nat.repr nodes), ("script_id", id), ("warnings", Nat.repr warnings)]
  | .failed path error => [("error", error), ("path", path)]

end Colloquy.Library
