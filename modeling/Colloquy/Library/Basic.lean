import Colloquy.Graph.Files

/-!
# Libraries

A library holds the dialogue graphs of a directory under their ids, the names of their files
without suffix. The directory has two parts: `scripts`, with sources that are compiled when they
are loaded, and `compiled`, with stored graphs. A stored graph wins over a script of the same id.
All scripts are compiled by one compiler, which the library keeps.

What one file gives is an entry: a compiled script, a stored graph, or nothing. Any file may hold
anything, so compiling a script never fails once its text has been read; reading a stored graph
fails only if its text is not in UTF-8, holds an integer that is too long, or nests too deeply.
-/

namespace Colloquy

open Files

/-- The graphs of a directory, and the compiler of its scripts. -/
structure Library where
  root : Path
  /-- The settings of the compiler. -/
  settings : Script.Settings := {}
  compiler : Script.Compiler := .new
  graphs : Ledger String Graph := .empty
  /-- The warnings about the scripts that have any. -/
  warnings : Ledger String (List Script.Warning) := .empty

namespace Library

/-! ## Entries -/

/-- What a file gives. -/
inductive Entry where
  | script (path : Path) (compiled : Script.Compiled)
  | stored (path : Path) (graph : Graph)
  | failure (path : Path) (problem : GraphProblem)

/-- Reads the file of a stored graph. -/
def Entry.ofStored (tree : Tree) (path : Path) : Except GraphProblem Entry :=
  match Graph.load tree path with
  | .ok graph => .ok (.stored path graph)
  | .error problem =>
    if problem.isSystem || problem.isFormat then .ok (.failure path problem) else .error problem

/-! ## Directories and graphs -/

/-- The ending of the names of scripts. -/
def scriptSuffix : String := ".dialogue"

/-- The ending of the names of stored graphs. -/
def storedSuffix : String := ".json"

/-- The directory of the scripts. -/
def scripts (library : Library) : Path :=
  library.root.child "scripts"

/-- The directory of the stored graphs. -/
def compiled (library : Library) : Path :=
  library.root.child "compiled"

/-- The graph with an id. -/
def get? (library : Library) (id : String) : Option Graph :=
  library.graphs.get? id

/-- The library without its graphs. -/
def cleared (library : Library) : Library :=
  { library with graphs := .empty, warnings := .empty }

/-- Takes in an entry. A later graph with an id replaces an earlier one; the warnings of an
earlier script stay if the later one has none. -/
def take (library : Library) : Entry → Library
  | .script path script =>
    { library with
      graphs := library.graphs.insert path.stem script.graph
      warnings :=
        if script.warnings.isEmpty then library.warnings
        else library.warnings.insert path.stem script.warnings }
  | .stored path graph => { library with graphs := library.graphs.insert path.stem graph }
  | .failure .. => library

end Library

end Colloquy
