import Colloquy.Arguments.Word
import Colloquy.Decimal.Read
import Colloquy.Files.Path
import Colloquy.Log
import Colloquy.Script.Settings

/-!
# Requests

A command line asks for one task. Options that concern every task stand before the name of the
task; the path that the task works on and the options of the task stand after it. Words are taken
in order, so a request for help is met unless something before it is wrong; words that nothing can
be made of are found out at the end.
-/

namespace Colloquy.Arguments

open Files

/-- The names of tasks. -/
inductive Verb where
  | compile
  | check
  | play
  deriving DecidableEq, Repr

/-- The verb that a word names. -/
def Verb.ofWord? (word : List Char) : Option Verb :=
  if word = "compile".toList then some .compile
  else if word = "check".toList then some .check
  else if word = "play".toList then some .play
  else none

/-- The options that concern every task. -/
def generalOptions : Grammar :=
  [("-h".toList, .help), ("--help".toList, .help), ("-v".toList, .verbose),
    ("--verbose".toList, .verbose), ("-q".toList, .quiet), ("--quiet".toList, .quiet),
    ("--min-indent".toList, .minIndent), ("--max-commands".toList, .maxCommands),
    ("--max-choices".toList, .maxChoices)]

/-- The options of a task. -/
def Verb.options : Verb → Grammar
  | .compile =>
    [("-h".toList, .help), ("--help".toList, .help), ("-o".toList, .output),
      ("--output".toList, .output)]
  | _ => [("-h".toList, .help), ("--help".toList, .help)]

/-- What has been asked for so far. -/
structure Wishes where
  verbose : Bool := false
  quiet : Bool := false
  settings : Script.Settings := {}
  script : Option Path := none
  output : Option Path := none

/-- Why no task is asked for. -/
inductive Refusal where
  /-- The command line asks how to use the program. -/
  | help
  /-- The command line cannot be understood. -/
  | misuse
  deriving DecidableEq, Repr

/-- The exit code of a refusal. -/
def Refusal.code : Refusal → Nat
  | .help => 0
  | .misuse => 2

/-- The path that a word spells. -/
def pathOf (word : List Char) : Path :=
  .ofText (String.ofList word)

/-- Reads the value of a numeric option. -/
def number (word : List Char) : Except Refusal Int :=
  (Decimal.readInt word).mapError fun _ => .misuse

/-- Takes in an option with its value. -/
def Wishes.take (wishes : Wishes) (flag : Flag) (value : List Char) : Except Refusal Wishes :=
  match flag with
  | .help => .error .help
  | .verbose => .ok { wishes with verbose := true }
  | .quiet => .ok { wishes with quiet := true }
  | .minIndent => do
    let minIndent ← number value
    return { wishes with settings := { wishes.settings with minIndent } }
  | .maxCommands => do
    let maxCommands ← number value
    return { wishes with settings := { wishes.settings with maxCommands } }
  | .maxChoices => do
    let maxChoices ← number value
    return { wishes with settings := { wishes.settings with maxChoices } }
  | .output => .ok { wishes with output := some (pathOf value) }

/-- Takes in the options of a word; the value belongs to the last one. -/
def Wishes.takeAll (wishes : Wishes) (flags : List Flag) (value : List Char) :
    Except Refusal Wishes :=
  flags.foldlM (fun wishes flag => wishes.take flag value) wishes

/-- What an option word comes to. -/
structure Taken where
  wishes : Wishes
  /-- Whether the word after it was used too. -/
  usesNext : Bool := false

/-- Takes in an option word, of which the first option is known. `words` are those after it. -/
def Wishes.takeWord (wishes : Wishes) (grammar : Grammar) (flag : Flag) (short : Bool)
    (attached : Option (List Char)) (words : List (List Char)) : Except Refusal Taken := do
  match takeApart grammar flag short attached with
  | none => .error .misuse
  | some (flags, .closed) => return { wishes := ← wishes.takeAll flags [] }
  | some (flags, .value text) => return { wishes := ← wishes.takeAll flags text }
  | some (flags, .next) =>
    match plainHead? grammar words with
    | none => .error .misuse
    | some value => return { wishes := ← wishes.takeAll flags value, usesNext := true }

/-! ## After the name of the task -/

/-- Takes in the words after the name of the task. `strange` tells whether there were words that
nothing can be made of. -/
def readDetails (grammar : Grammar) (wishes : Wishes) (strange : Bool) :
    List (List Char) → Except Refusal (Wishes × Bool)
  | [] => if wishes.script.isSome then .ok (wishes, strange) else .error .misuse
  | word :: words =>
    if word = separator then
      match wishes.script, words with
      | none, script :: rest =>
        .ok ({ wishes with script := some (pathOf script) }, strange || ! rest.isEmpty)
      | none, [] => .error .misuse
      | some _, _ => .ok (wishes, true)
    else
      match classify grammar word with
      | .ambiguous => .error .misuse
      | .unknown => readDetails grammar wishes true words
      | .plain =>
        if wishes.script.isSome then readDetails grammar wishes true words
        else
          let wishes := { wishes with script := some (pathOf word) }
          match words with
          | next :: rest =>
            if next = separator then .ok (wishes, strange || ! rest.isEmpty)
            else readDetails grammar wishes strange words
          | [] => .ok (wishes, strange)
      | .option flag short attached =>
        match wishes.takeWord grammar flag short attached words with
        | .error refusal => .error refusal
        | .ok taken =>
          if taken.usesNext then
            match words with
            | _ :: rest => readDetails grammar taken.wishes strange rest
            | [] => .error .misuse
          else readDetails grammar taken.wishes strange words

/-! ## The whole command line -/

/-- Takes in all words. -/
def readWords (wishes : Wishes) (strange : Bool) :
    List (List Char) → Except Refusal (Verb × Wishes × Bool)
  | [] => .error .misuse
  | word :: words =>
    if word = separator then .error .misuse
    else
      match classify generalOptions word with
      | .ambiguous => .error .misuse
      | .unknown => readWords wishes true words
      | .plain =>
        match Verb.ofWord? word with
        | none => .error .misuse
        | some verb =>
          if hasAmbiguous verb.options words then .error .misuse
          else (readDetails verb.options wishes strange words).map fun rest => (verb, rest)
      | .option flag short attached =>
        match wishes.takeWord generalOptions flag short attached words with
        | .error refusal => .error refusal
        | .ok taken =>
          if taken.usesNext then
            match words with
            | _ :: rest => readWords taken.wishes strange rest
            | [] => .error .misuse
          else readWords taken.wishes strange words

/-- What the program is to do. -/
inductive Task where
  | compile (script : Path) (output : Option Path)
  | check (script : Path)
  | play (script : Path)
  deriving DecidableEq, Repr

/-- A task, with what concerns every task. -/
structure Request where
  /-- The lowest level of log entries that are shown. -/
  level : Level
  settings : Script.Settings
  task : Task
  deriving DecidableEq, Repr

/-- The level of log entries that is asked for. -/
def Wishes.level (wishes : Wishes) : Level :=
  if wishes.verbose then .debug else if wishes.quiet then .warning else .info

/-- The task of a verb on a script. -/
def Wishes.task (wishes : Wishes) (script : Path) : Verb → Task
  | .compile => .compile script wishes.output
  | .check => .check script
  | .play => .play script

/-- The request that a command line makes. -/
def Request.ofWords (words : List String) : Except Refusal Request :=
  let words := words.map String.toList
  if hasAmbiguous generalOptions words then .error .misuse
  else
    match readWords {} false words with
    | .error refusal => .error refusal
    | .ok (verb, wishes, strange) =>
      match strange, wishes.script with
      | false, some script => .ok ⟨wishes.level, wishes.settings, wishes.task script verb⟩
      | _, _ => .error .misuse

end Colloquy.Arguments
