import Colloquy.Terminal.Run

/-!
# The program

Finds the files that a command line names, meets its request, and writes what has changed. Playing
goes line by line; everything else is one run.
-/

namespace Colloquy.Program

open Arguments Files Terminal

/-- How the program is used. -/
def usage : String :=
  "usage: dialogue [-v] [-q] [--min-indent N] [--max-commands N] [--max-choices N]\n" ++
  "                (compile SCRIPT [-o OUTPUT] | check SCRIPT | play SCRIPT)\n"

/-- Adds what stands on the way of a path to a tree. -/
def look (tree : Tree) (path : Path) : IO Tree := do
  let top ← IO.FS.realPath "/"
  let mut tree := tree
  let mut place : Place := if path.isAbsolute then .top else tree.home
  for name in path.names do
    place := if name = ".." then place.parent else place.child name
    let file := place.names.foldl (· / ·) top
    if ← file.isDir then
      if (tree.item? place).isNone then tree := tree.put place .directory
    else if ← file.pathExists then
      tree := tree.put place (.file (← IO.FS.readBinFile file).toList)
  return tree

/-- The paths that a task names. -/
def pathsOf : Task → List Path
  | .compile script output => script :: (output <|> script.withSuffix? ".json").toList
  | .check script => [script]
  | .play script => [script]

/-- Writes the files that have changed. -/
def store (tree before : Tree) : IO Unit := do
  let top ← IO.FS.realPath "/"
  for (place, bytes) in tree.changes before do
    let file := place.names.foldl (· / ·) top
    IO.FS.writeBinFile file ⟨bytes.toArray⟩

/-- Shows a report and gives the exit code. -/
def finish (request : Request) (report : Report) (before : Tree) : IO UInt32 := do
  let report := report.settled.atLevel request.level
  IO.print report.output
  IO.eprint report.logText
  store report.tree before
  match report.ending with
  | .exit code => return UInt32.ofNat code
  | .failure trouble =>
    IO.eprintln trouble.message
    return 1

/-- Shows what has been written and logged, and forgets it. -/
def release (level : Level) (world : World Screen) : IO (World Screen) := do
  IO.print world.rest.host.text
  (← IO.getStdout).flush
  for entry in world.rest.log do
    if level.rank ≤ entry.level.rank then IO.eprintln entry.line
  let host := { world.rest.host with text := "" }
  return { world with rest := { world.rest with log := [], host } }

/-- Plays on, a line at a time. -/
partial def converse (request : Request) (tree : Tree) (act : Playing Bool) (world : World Screen) :
    IO UInt32 := do
  let (result, world) := act.run.run world
  let world ← release request.level world
  match result with
  | .error fault => finish request (.ofPlaying tree (.error fault) world) tree
  | .ok false => return 0
  | .ok true =>
    let line ← (← IO.getStdin).getLine
    if line.isEmpty then return 0
    else
      let next : Playing Bool := do
        if ← takeLine line.toList then ask else return false
      converse request tree next world

/-- Meets a request. -/
def meet (request : Request) (tree : Tree) : IO UInt32 := do
  match request.task with
  | .play script =>
    match openPlay request.settings tree script with
    | .error report => finish request report tree
    | .ok world => converse request tree (do Session.start host; ask) world
  | task => finish request (runTask request.settings tree "" task) tree

end Colloquy.Program

/-- Runs the program. -/
def main (arguments : List String) : IO UInt32 := do
  match Colloquy.Arguments.Request.ofWords arguments with
  | .error .help =>
    IO.print Colloquy.Program.usage
    return 0
  | .error .misuse =>
    IO.eprint Colloquy.Program.usage
    return 2
  | .ok request =>
    let home := (Colloquy.Files.Path.ofText (← IO.currentDir).toString).names
    let tree ← (Colloquy.Program.pathsOf request.task).foldlM Colloquy.Program.look
      (.bare (.ofNames home))
    Colloquy.Program.meet request tree
