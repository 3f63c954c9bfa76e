import Colloquy.Arguments.Request
import Colloquy.Graph.Files
import Colloquy.Terminal.Player

/-!
# Running a request

A request works on files and an input and leaves an output, log entries, files, and an exit code.
Trouble with a file or with what it says is logged and gives the exit code two. A path with a NUL
in it, a file whose text is not in UTF-8, an integer that is too long, values that nest too
deeply, and an answer that only looks like a number end the program.
-/

namespace Colloquy.Terminal

open Arguments Files

/-- Why a request is not met. -/
inductive Trouble where
  | conversion (problem : Script.ConversionProblem)
  | graph (problem : GraphProblem)
  | playing (fault : Fault BadAnswer)

/-- Trouble in words. -/
def Trouble.message : Trouble → String
  | .conversion problem => problem.message
  | .graph problem => problem.message
  | .playing (.host bad) => bad.message
  | .playing fault => fault.message

/-- Whether trouble is logged. Other trouble ends the program. -/
def Trouble.isReported : Trouble → Bool
  | .conversion (.text problem) => problem.isSystem
  | .conversion (.unnamed _) => false
  | .graph problem => problem.isSystem || problem.isFormat
  | .playing .noGraph => true
  | .playing (.emptyGraph _) => true
  | .playing (.invalidJump ..) => true
  | .playing (.invalidChoice ..) => true
  | .playing _ => false

/-- How a program ends. -/
inductive Ending where
  | exit (code : Nat)
  | failure (trouble : Trouble)

/-- What a request leaves. -/
structure Report where
  output : String := ""
  log : List LogEntry := []
  tree : Tree
  ending : Ending

/-- Compiles a script into a file. -/
def runCompile (settings : Script.Settings) (tree : Tree) (script : Path) (output : Option Path) :
    Report :=
  let done := Script.convertFile settings tree script output
  match done.outcome with
  | .ok (_, tree) => { log := done.log, tree, ending := .exit 0 }
  | .error problem => { log := done.log, tree, ending := .failure (.conversion problem) }

/-- The lines that report what is wrong with a compiled script. -/
def complaints (script : Path) (compiled : Script.Compiled) : List String :=
  compiled.warnings.map (fun warning =>
    s!"{script.text}:{warning.place.number}: warning: {warning.complaint.message}") ++
  compiled.graph.unresolved.map fun (tag, target) =>
    s!"{script.text}: error: [{tag}] points at missing tag [{target}]"

/-- Reports what is wrong with a script. -/
def runCheck (settings : Script.Settings) (tree : Tree) (script : Path) : Report :=
  match Script.compileFile settings tree script with
  | .error problem => { tree, ending := .failure (.graph (.data (.text problem))) }
  | .ok compiled =>
    let lines := complaints script compiled
    let count := s!"{compiled.graph.size} nodes, {lines.length} problems"
    { output := String.join ((lines ++ [count]).map (· ++ "\n"))
      log := compiled.log
      tree
      ending := .exit (if lines.isEmpty then 0 else 1) }

/-- The graph in a file, which is a stored graph if it is named so and a script otherwise, with
what is logged on the way. -/
def openGraph (settings : Script.Settings) (tree : Tree) (script : Path) :
    Except GraphProblem (Graph × List LogEntry) :=
  if script.suffix = ".json" then
    (Graph.load tree script).map fun graph => (graph, [graph.loadedEntry script])
  else
    match Script.compileFile settings tree script with
    | .error problem => .error (.data (.text problem))
    | .ok compiled => .ok (compiled.graph, compiled.log)

/-- The state before the graph in a file is played, or the report if there is nothing to play. -/
def openPlay (settings : Script.Settings) (tree : Tree) (script : Path) :
    Except Report (World Screen) :=
  match openGraph settings tree script with
  | .error problem => .error { tree, ending := .failure (.graph problem) }
  | .ok (graph, log) =>
    if graph.nodes.isEmpty then
      .error { output := "Script has no dialogue.\n", log, tree, ending := .exit 1 }
    else .ok (initial graph log)

/-- The report on playing that has come to its end. -/
def Report.ofPlaying (tree : Tree) (result : Except (Fault BadAnswer) Unit) (world : World Screen) :
    Report where
  output := world.rest.host.text
  log := world.rest.log
  tree
  ending :=
    match result with
    | .ok _ => .exit 0
    | .error fault => .failure (.playing fault)

/-- Plays a script or a stored graph. -/
def runPlay (settings : Script.Settings) (tree : Tree) (input : String) (script : Path) : Report :=
  match openPlay settings tree script with
  | .error report => report
  | .ok world =>
    let (result, world) := (playAll (inputLines input)).run.run world
    .ofPlaying tree result world

/-- Does a task. -/
def runTask (settings : Script.Settings) (tree : Tree) (input : String) : Task → Report
  | .compile script output => runCompile settings tree script output
  | .check script => runCheck settings tree script
  | .play script => runPlay settings tree input script

/-- Logs the trouble that a report ends with, if it is to be logged. -/
def Report.settled (report : Report) : Report :=
  match report.ending with
  | .exit _ => report
  | .failure trouble =>
    if trouble.isReported then
      { report with
        log := report.log ++ [⟨.error, .commandLine, trouble.message⟩]
        ending := .exit 2 }
    else report

/-- Leaves out the log entries below a level. -/
def Report.atLevel (report : Report) (level : Level) : Report :=
  { report with log := report.log.filter fun entry => level.rank ≤ entry.level.rank }

/-- Meets a request. -/
def run (request : Request) (tree : Tree) (input : String) : Report :=
  ((runTask request.settings tree input request.task).settled).atLevel request.level

/-- The text of the log as a terminal shows it. -/
def Report.logText (report : Report) : String :=
  String.join (report.log.map fun entry => entry.line ++ "\n")

end Colloquy.Terminal
