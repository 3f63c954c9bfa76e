import Colloquy.Proofs.Session.Hosts

/-!
# What a command does

A command of a script closes the session, asks for a jump, or does some work and lets the next
command have its turn. Which of the three depends on the command and on the variables.
`Command.work` says so once, and `runCommand_on` shows that running a command is doing its work.
-/

namespace Colloquy

/-- What a command does. -/
inductive Work where
  /-- It closes the session. -/
  | close
  /-- It asks for a jump to the node with a tag. -/
  | jump (tag : String)
  /-- It lets signals out and leaves the variables behind. -/
  | plain (signals : List Signal) (store : Store)

namespace Command

/-- Says how a command is used. -/
def misuse (command : Command) (form : String) : Signal :=
  .log .error s!"Dialogue script: invalid use of command '{command.text}'. Usage: {form}"

/-- The value that an author wrote after the name of a variable. -/
def writtenValue (command : Command) : Value :=
  Value.parse (String.ofList (Chars.afterWord (command.parameter.getD "").toList))

/-- The text that a command prints. -/
def printedText (command : Command) (store : Store) : String :=
  Reference.resolve store.display (command.parameter.getD "")

/-- What a command does, given the variables. -/
def work (command : Command) (store : Store) : Work :=
  match command.name, command.arguments with
  | "close", _ => .close
  | "closeif", [] => .plain [command.misuse "@closeif <flag>"] store
  | "closeif", flag :: _ => if store.contains flag then .close else .plain [] store
  | "jump", [] => .plain [command.misuse "@jump <tag>"] store
  | "jump", tag :: _ => .jump tag
  | "jumpif", tag :: flag :: _ => if store.contains flag then .jump tag else .plain [] store
  | "jumpif", _ => .plain [command.misuse "@jumpif <tag> <flag>"] store
  | "set", name :: _ :: _ =>
    .plain [.log .debug s!"Dialogue variable set: {name} = {command.writtenValue.display}"]
      (store.set name command.writtenValue)
  | "set", _ => .plain [command.misuse "@set <name> <value...>"] store
  | "flag", [] => .plain [command.misuse "@flag <name>"] store
  | "flag", name :: _ => .plain [] (store.set name (.bool true))
  | "unset", [] => .plain [command.misuse "@unset <name>"] store
  | "unset", name :: _ => .plain [] (store.erase name)
  | "print", _ =>
    .plain [.log .info s!"Dialogue print: {command.printedText store}",
      .tell (.print (command.printedText store)),
      .publish (.print (command.printedText store))] store
  | _, _ => .plain [.tell (.command command), .publish (.command command)] store

/-- The variables that a command leaves behind. -/
def leaves (command : Command) (store : Store) : Store :=
  match command.work store with
  | .plain _ store => store
  | _ => store

/-- What a command lets out: nothing, an entry in the log that is no warning, what it prints, or
itself. -/
theorem signals_of_work {command : Command} {store store' : Store} {signals : List Signal}
    (hwork : command.work store = .plain signals store') :
    signals = [] ∨
      (∃ level message, level ≠ Level.warning ∧ signals = [.log level message]) ∨
      (∃ message text,
        signals = [.log .info message, .tell (.print text), .publish (.print text)]) ∨
      signals = [.tell (.command command), .publish (.command command)] := by
  unfold work at hwork
  split at hwork
  case h_3 | h_6 => split at hwork <;> cases hwork; simp
  case h_1 | h_5 => cases hwork
  all_goals cases hwork; simp [misuse]

end Command

namespace Session

variable {σ ε : Type} {host : Host σ ε}

/-- Leaves other variables behind. -/
def keepStore (store : Store) (session : Session) : Session :=
  { session with store }

/-- Lets signals out and then changes the session. -/
def sendThen (host : Host σ ε) (signals : List Signal) (change : Session → Session) :
    Act σ ε Unit := do
  sendAll host signals
  Act.modifySession change

/-- Signals of a command that leaves the variables alone. -/
theorem sendThen_keepStore (hhost : host.Aloof) (signals : List Signal) (moved : Bool)
    (world : World σ) :
    (sendThen host signals (keepStore world.rest.session.store) >>= fun _ => pure moved).on world =
      (sendAll host signals >>= fun _ => pure moved).on world := by
  have hsession := sendAll_session hhost signals world
  rw [sendThen, bind_assoc, Act.on_bind, Act.on_bind]
  split
  · next hon =>
    rw [hon] at hsession
    rw [Act.on_bind, Act.on_modifySession, ← hsession]
    rfl
  · rfl

/-- Running a command is doing its work. -/
theorem runCommand_on (hhost : host.Aloof) (jump : String → Act σ ε Bool) (command : Command)
    (world : World σ) :
    (runCommand host jump command).on world =
      match command.work world.rest.session.store with
      | .close => (complete host >>= fun _ => pure true).on world
      | .jump tag => (jump tag).on world
      | .plain signals store =>
        (sendThen host signals (keepStore store) >>= fun _ => pure false).on world := by
  unfold runCommand
  split
  · next hname => simp only [Command.work, hname]
  · next hname harguments =>
    simp only [Command.work, hname, harguments]
    rfl
  · next flag rest hname harguments =>
    simp only [Command.work, hname, harguments]
    rw [Act.on_bind, Act.on_session]
    dsimp only
    split
    · rfl
    · rfl
  · next hname harguments =>
    simp only [Command.work, hname, harguments]
    rfl
  · next tag rest hname harguments =>
    simp only [Command.work, hname, harguments]
  · next tag flag rest hname harguments =>
    simp only [Command.work, hname, harguments, Act.on_bind, Act.on_session]
    split
    · rfl
    · rfl
  · next hname hfew =>
    simp only [Command.work, hname]
    rfl
  · next name word rest hname harguments =>
    simp only [Command.work, hname, harguments]
    rfl
  · next hname hfew =>
    simp only [Command.work, hname]
    rfl
  · next hname harguments =>
    simp only [Command.work, hname, harguments]
    rfl
  · next name rest hname harguments =>
    simp only [Command.work, hname, harguments]
    rfl
  · next hname harguments =>
    simp only [Command.work, hname, harguments]
    rfl
  · next name rest hname harguments =>
    simp only [Command.work, hname, harguments]
    rfl
  · next hname =>
    simp only [Command.work, hname]
    rw [sendThen_keepStore hhost, Act.on_bind, Act.on_session]
    simp only [sendAll, send, bind_assoc, pure_bind]
    rfl
  · next =>
    simp only [Command.work]
    rw [sendThen_keepStore hhost]
    simp only [sendAll, send, bind_assoc, pure_bind]

end Session

end Colloquy
