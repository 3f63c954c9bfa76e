import Colloquy.Log
import Colloquy.Script.Draft

/-!
# Compiled scripts

A compiler reads a script line by line into its draft. It never fails: every text gives a graph,
with warnings about the lines that could not be used.

One compiler may compile many scripts. It keeps its draft until the next script, for which it
starts from a clean state. `compile` is what a compiler makes of a script that has compiled
nothing before.
-/

namespace Colloquy.Script

/-- The lines of a script with their numbers, counted from one. Carriage returns at the end of a
line do not belong to it. -/
def numberedLines (text : String) : List (Nat × Line) :=
  (Chars.lines text.toList).zipIdx.map fun (line, index) => (index + 1, Chars.dropReturns line)

/-- A graph and the warnings that arose on the way to it. -/
structure Compiled where
  graph : Graph
  warnings : List Warning

/-- What the compiler logs: every warning as it arises, and the outcome. -/
def Compiled.log (compiled : Compiled) : List LogEntry :=
  compiled.warnings.map (fun warning =>
    ⟨.warning, .compiler, "Dialogue script " ++ warning.text⟩) ++
  [⟨.debug, .compiler,
    s!"Compiled dialogue script: {compiled.graph.size} nodes, {compiled.warnings.length} warnings"⟩]

/-- A compiler: the draft it works on, or has worked on last, and the line it is at. -/
structure Compiler where
  draft : Draft := {}
  place : Place := {}

namespace Compiler

/-- A compiler that has compiled nothing yet. -/
def new : Compiler := {}

/-- Clears everything but the warnings. -/
def reset (compiler : Compiler) : Compiler where
  draft :=
    { compiler.draft with
      graph := .empty
      usedTags := []
      tag_used := by decide
      autoTags := 0
      block := {}
      inChoices := false }
  place := {}

/-- Forgets the warnings. -/
def forgetWarnings (compiler : Compiler) : Compiler :=
  { compiler with draft := { compiler.draft with warnings := [] } }

/-- Goes to a line and takes it in. -/
def readLine (settings : Settings) (compiler : Compiler) (entry : Nat × Line) : Compiler :=
  let place : Place := ⟨entry.1, String.ofList entry.2⟩
  { draft := compiler.draft.read settings place entry.2, place }

/-- Takes in some lines. -/
def readLines (settings : Settings) (compiler : Compiler) (lines : List (Nat × Line)) : Compiler :=
  lines.foldl (readLine settings) compiler

/-- Leaves the lines and closes the last block. -/
def finish (settings : Settings) (compiler : Compiler) : Compiler where
  draft := { compiler.draft.finish settings with block := {}, inChoices := false }
  place := {}

/-- Compiles a script. -/
def compile (settings : Settings) (compiler : Compiler) (text : String) : Compiler :=
  (compiler.reset.forgetWarnings.readLines settings (numberedLines text)).finish settings

/-- What the compiler has made of the last script. -/
def compiled (compiler : Compiler) : Compiled :=
  ⟨compiler.draft.graph, compiler.draft.warnings⟩

end Compiler

/-- The draft of a new compiler after some lines. -/
def readAll (settings : Settings) (lines : List (Nat × Line)) : Draft :=
  (Compiler.new.readLines settings lines).draft

/-- The graph of a script, made by a new compiler. -/
def compile (settings : Settings) (text : String) : Compiled :=
  (Compiler.new.compile settings text).compiled

end Colloquy.Script
