import Colloquy.Library.Basic
import Colloquy.Library.News

/-!
# Loading a library

Loading starts from nothing, compiles every script, and then reads every stored graph, both in the
order of their file names. A file that cannot be read is reported and passed over. A stored graph
whose text is not in UTF-8, that holds an integer that is too long, or that nests too deeply ends
the loading; what was loaded before it stays. So does a directory whose path is too long to be
asked for.
-/

namespace Colloquy.Library

open Files

/-- A library while it is loaded, with what it has said. -/
structure Loading where
  library : Library
  log : List LogEntry := []
  news : List News := []

namespace Loading

/-- What the log says about an entry. -/
def entryLog (library : Library) : Entry → List LogEntry
  | .script _ compiled => compiled.log
  | .stored path graph =>
    Graph.loadedEntry path graph ::
      if library.graphs.contains path.stem then
        [⟨.debug, .library, s!"Compiled graph {path.name} overrides its script"⟩]
      else []
  | .failure path problem =>
    [⟨.error, .library, s!"Failed to load {path.text}: {problem.message}"⟩]

/-- What the bus is told about an entry. -/
def entryNews : Entry → List News
  | .script path compiled =>
    [.compiled path.stem compiled.graph.size compiled.warnings.length]
  | .stored .. => []
  | .failure path problem => [.failed path.text problem.message]

/-- Adds to the log. -/
def say (loading : Loading) (level : Level) (message : String) : Loading :=
  { loading with log := loading.log ++ [⟨level, .library, message⟩] }

/-- Takes in an entry. -/
def take (loading : Loading) (entry : Entry) : Loading where
  library := loading.library.take entry
  log := loading.log ++ entryLog loading.library entry
  news := loading.news ++ entryNews entry

/-- Compiles the script in a file, with the compiler that has compiled the scripts before. -/
def takeScript (tree : Tree) (loading : Loading) (path : Path) : Loading :=
  let library := loading.library
  match library.compiler.compileFile library.settings tree path with
  | .error problem => loading.take (.failure path (.data (.text problem)))
  | .ok compiler =>
    { loading with library := { library with compiler } }.take (.script path compiler.compiled)

/-- The problem with a directory that cannot be asked for. -/
def barred (failure : Failure) : GraphProblem :=
  .data (.text (.system failure))

/-- Compiles the scripts. -/
def readScripts (tree : Tree) (loading : Loading) : Loading × Option GraphProblem :=
  let directory := loading.library.scripts
  match tree.exists? directory with
  | .error failure => (loading, some (barred failure))
  | .ok false => (loading.say .warning s!"Script directory not found: {directory.text}", none)
  | .ok true => ((tree.list directory scriptSuffix).foldl (takeScript tree) loading, none)

/-- Reads stored graphs up to one that ends the loading. -/
def takeStored (tree : Tree) : List Path → Loading → Loading × Option GraphProblem
  | [], loading => (loading, none)
  | path :: paths, loading =>
    match Entry.ofStored tree path with
    | .ok entry => takeStored tree paths (loading.take entry)
    | .error problem => (loading, some problem)

/-- Reads the stored graphs. -/
def readStored (tree : Tree) (loading : Loading) : Loading × Option GraphProblem :=
  let directory := loading.library.compiled
  match tree.exists? directory with
  | .error failure => (loading, some (barred failure))
  | .ok false =>
    (loading.say .debug s!"Compiled graph directory not found: {directory.text}", none)
  | .ok true => takeStored tree (tree.list directory storedSuffix) loading

/-- Says that everything is loaded. -/
def close (loading : Loading) : Loading :=
  let count := loading.library.graphs.size
  let loading := loading.say .info s!"Loaded {count} dialogue graphs."
  { loading with news := loading.news ++ [.loaded count] }

end Loading

/-- Loads everything anew. The second part is the problem that ended the loading, if one did. -/
def load (library : Library) (tree : Tree) : Loading × Option GraphProblem :=
  match Loading.readScripts tree { library := library.cleared } with
  | (loading, some problem) => (loading, some problem)
  | (loading, none) =>
    match loading.readStored tree with
    | (loading, some problem) => (loading, some problem)
    | (loading, none) => (loading.close, none)

end Colloquy.Library
