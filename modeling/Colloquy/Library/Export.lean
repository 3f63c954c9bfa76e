import Colloquy.Library.Basic

/-!
# Writing a library

Every graph of a library is written as a stored graph under its id, in the order of the ids. Files
that were written before one that could not be written stay.
-/

namespace Colloquy.Library

open Files

/-- What comes of writing a library. -/
structure Export where
  tree : Tree
  log : List LogEntry := []
  /-- The files written. -/
  outcome : Except Failure (List Path)

/-- Writes graphs into a directory. -/
def writeGraphs (directory : Path) :
    List (String × Graph) → Tree → Tree × Except Failure (List Path)
  | [], tree => (tree, .ok [])
  | (id, graph) :: rest, tree =>
    let path := directory.child (id ++ storedSuffix)
    match graph.save tree path with
    | .error failure => (tree, .error failure)
    | .ok tree =>
      let (tree, outcome) := writeGraphs directory rest tree
      (tree, outcome.map (path :: ·))

/-- The ids and graphs in the order of the ids. -/
def sorted (library : Library) : List (String × Graph) :=
  library.graphs.entries.mergeSort fun a b => a.1 ≤ b.1

/-- Writes all graphs into a directory, which is made if it is missing; by default into the
directory of the stored graphs. -/
def write (library : Library) (tree : Tree) (output : Option Path) : Export :=
  let directory := output.getD library.compiled
  match tree.makeDirectories directory with
  | .error failure => { tree, outcome := .error failure }
  | .ok tree =>
    match writeGraphs directory library.sorted tree with
    | (tree, .error failure) => { tree, outcome := .error failure }
    | (tree, .ok paths) =>
      let done := s!"Wrote {paths.length} compiled graphs to {directory.text}"
      { tree, log := [⟨.info, .library, done⟩], outcome := .ok paths }

end Colloquy.Library
