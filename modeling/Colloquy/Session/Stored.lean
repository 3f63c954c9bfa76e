import Colloquy.Graph.Files
import Colloquy.Session.Play

/-!
# Sessions in files

Of a session only the variables are stored. A session that is restored starts again at the first
node. Restoring either replaces all variables or fails and leaves the session as it was.
-/

namespace Colloquy

open Files

/-- The stored form of a session. -/
def sessionSchema : Json.Schema :=
  .object ["variables"] false
    [("version", .integer),
      ("variables", .dictionary (.object ["type", "value"] false
        [("type", .oneOf (Value.Kind.all.map Value.Kind.name))]))]

/-- Why data is not a stored session. -/
inductive SessionDefect where
  | violation (violation : Json.Violation)
  /-- A variable whose data is of a wrong type or has a wrong content. -/
  | badVariable (defect : Value.Defect)
  /-- A variable that cannot be read for another reason. -/
  | unreadable (defect : Value.Defect)

/-- A defect in words. -/
def SessionDefect.message : SessionDefect → String
  | .violation found => "Invalid dialogue session: " ++ found.fault.message
  | .badVariable defect => "Invalid dialogue session: " ++ defect.message
  | .unreadable defect => defect.message

/-- The defect of a session that a defect of a variable makes. -/
def SessionDefect.ofVariable (defect : Value.Defect) : SessionDefect :=
  match defect.class with
  | .type => .badVariable defect
  | .content => .badVariable defect
  | .missing => .unreadable defect
  | .range => .unreadable defect
  | .belated => .unreadable defect

namespace Session

/-- A session as the files hold it. -/
def toJson (session : Session) : Json :=
  .object [("version", .int formatVersion), ("variables", session.store.toJson)]

/-- The variables that data stands for. -/
def variablesOf (data : Json) (palette : Value.Palette := .none) : Except SessionDefect Store :=
  match sessionSchema.check data with
  | .error found => .error (.violation found)
  | .ok () =>
    let entries :=
      match data.get? "variables" with
      | some (.object entries) => entries
      | _ => []
    (Store.ofEntries entries palette).mapError SessionDefect.ofVariable

/-- A session with the variables that data stands for, at its first node. -/
def restore (session : Session) (data : Json) (palette : Value.Palette := .none) :
    Except SessionDefect Session :=
  (variablesOf data palette).map fun store => rewound { session with store }

/-- Why a session cannot be loaded. -/
inductive Problem where
  | data (problem : DataProblem)
  | defect (defect : SessionDefect)

/-- Writes the variables of a session into a file. -/
def save (session : Session) (tree : Tree) (path : Path) : Except Failure Tree :=
  tree.writeJson path session.toJson

/-- A session with the variables in a file. -/
def load (session : Session) (tree : Tree) (path : Path) (palette : Value.Palette := .none) :
    Except Problem Session :=
  match tree.readJson path with
  | .error problem => .error (.data problem)
  | .ok data => (session.restore data palette).mapError .defect

end Session

end Colloquy
