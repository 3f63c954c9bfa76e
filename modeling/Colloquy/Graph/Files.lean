import Colloquy.Files.Text
import Colloquy.Graph.Stored
import Colloquy.Script.Compiled

/-!
# Graphs and scripts in files

Loading and saving stored graphs, and compiling a script file into the file of its graph.
-/

namespace Colloquy

open Files

/-- Why a graph cannot be loaded. -/
inductive GraphProblem where
  | data (problem : DataProblem)
  | format (defect : GraphDefect)

/-- A problem in words. -/
def GraphProblem.message : GraphProblem → String
  | .data problem => problem.message
  | .format defect => defect.message

/-- Whether the problem lies in what the file says, not in getting at it. -/
def GraphProblem.isFormat : GraphProblem → Bool
  | .format _ => true
  | .data (.syntaxError ..) => true
  | .data _ => false

/-- Whether the operating system refused the file. -/
def GraphProblem.isSystem : GraphProblem → Bool
  | .data (.text problem) => problem.isSystem
  | _ => false

/-- The graph in a file. -/
def Graph.load (tree : Tree) (path : Path) : Except GraphProblem Graph :=
  match tree.readJson path with
  | .error problem => .error (.data problem)
  | .ok data =>
    match Graph.ofJson data with
    | .error defect => .error (.format defect)
    | .ok graph => .ok graph

/-- What is logged when a graph has been loaded. -/
def Graph.loadedEntry (path : Path) (graph : Graph) : LogEntry :=
  ⟨.debug, .persistence, s!"Loaded dialogue graph {path.text} ({graph.size} nodes)"⟩

/-- Writes a graph into a file. -/
def Graph.save (graph : Graph) (tree : Tree) (path : Path) : Except Failure Tree :=
  tree.writeJson path graph.toJson

namespace Script

/-- Compiles the script in a file. If the file cannot be read, the compiler is left as it is. -/
def Compiler.compileFile (settings : Settings) (compiler : Compiler) (tree : Tree) (path : Path) :
    Except TextProblem Compiler :=
  (tree.readText path).map (compiler.compile settings)

/-- Compiles the script in a file with a new compiler. -/
def compileFile (settings : Settings) (tree : Tree) (path : Path) : Except TextProblem Compiled :=
  (Compiler.new.compileFile settings tree path).map (·.compiled)

theorem compileFile_eq (settings : Settings) (tree : Tree) (path : Path) :
    compileFile settings tree path = (tree.readText path).map (compile settings) := by
  unfold compileFile Compiler.compileFile
  cases tree.readText path <;> rfl

/-- What may keep a script file from being compiled into a graph file. -/
inductive ConversionProblem where
  /-- There is no name to put the new suffix to. -/
  | unnamed (path : Path)
  | text (problem : TextProblem)
  deriving DecidableEq, Repr

/-- A problem in words. -/
def ConversionProblem.message : ConversionProblem → String
  | .unnamed path => s!"PosixPath({quote path.text}) has an empty name"
  | .text problem => problem.message

/-- The outcome of a conversion. What was logged is known even if the graph could not be written. -/
structure Conversion where
  log : List LogEntry
  /-- The path and the files after writing. -/
  outcome : Except ConversionProblem (Path × Tree)

/-- Compiles the script in a file and writes its graph into another file, by default the one with
the suffix `.json` beside it. -/
def convertFile (settings : Settings) (tree : Tree) (input : Path) (output : Option Path) :
    Conversion :=
  match output <|> input.withSuffix? ".json" with
  | none => ⟨[], .error (.unnamed input)⟩
  | some output =>
    match compileFile settings tree input with
    | .error problem => ⟨[], .error (.text problem)⟩
    | .ok compiled =>
      match compiled.graph.save tree output with
      | .error failure => ⟨compiled.log, .error (.text (.system failure))⟩
      | .ok tree =>
        let done := ⟨.info, .compiler, s!"Compiled {input.text} -> {output.text}"⟩
        ⟨compiled.log ++ [done], .ok (output, tree)⟩

end Script

end Colloquy
