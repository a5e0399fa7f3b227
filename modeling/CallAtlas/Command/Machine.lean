import CallAtlas.Command.Run

/-!
# Described Machines

A machine that is only described: its files, its variables, the one program on it, its
stores and the server it can reach. Handling a command line on it is a pure step from
one description to the next, so a sequence of command lines can be followed without
touching anything real. Its identifiers are numbers of as many digits as a random
identifier has, and its time goes on by a millisecond with every snapshot.

## Main definitions

* `Machine`: The description of a machine.
* `Machine.host`: A described machine as the host of requests.
* `Machine.run`: Handles a command line.
-/

namespace CallAtlas

namespace Command

/-- The description of a machine. -/
structure Machine where
  directory : Path
  environment : Variables := .empty
  /-- The texts of the files, by clean path from the root. -/
  files : Table String String := .empty
  program : Option Program := none
  /-- The stores, by clean path from the root. -/
  stores : Table String Store := .empty
  /-- The server that can be reached. -/
  server : Option Export.Server := none
  /-- The number of identifiers handed out. -/
  issued : Nat := 0

namespace Machine

/-- The identifier with a number. -/
def idText (n : Nat) : String :=
  let digits := (toString n).toList
  String.ofList (List.replicate (36 - digits.length) '0' ++ digits)

/-- The moment the first snapshot is made, in milliseconds. -/
def firstMoment : Int := 1700000000000

/-- A path from the root. -/
def place (m : Machine) (path : String) : Path := Path.within m.directory (.parse path.toList)

/-- Whether a file is beneath a place. -/
def hasBeneath (m : Machine) (p : Path) : Bool :=
  m.files.keys.any fun f => p.steps.isPrefixOf (Path.parse f.toList).steps

/-- Whether a file is at a place or on the way to it. -/
def hasFileOnWay (m : Machine) (p : Path) : Bool :=
  m.files.keys.any fun f => (Path.parse f.toList).steps.isPrefixOf p.steps

/-- The text of the file at a path. -/
def readFile (m : Machine) (path : String) : Except FileError String :=
  let p := m.place path
  match m.files.find? (String.ofList p.text) with
  | some text => .ok text
  | none =>
    if m.hasBeneath p then .error .directory
    else if m.hasFileOnWay p then .error .throughFile
    else .error .missing

/-- The store at a path, unless a file is in its way. -/
def openStore (m : Machine) (path : String) : Option Store :=
  let p := m.place path
  if m.hasFileOnWay p then none
  else some ((m.stores.find? (String.ofList p.text)).getD .empty)

/-- Keeps what a store has become. -/
def writeStore (m : Machine) (path : String) (s : Store) : Machine :=
  { m with stores := m.stores.insert (String.ofList (m.place path).text) s }

/-- Hands out an identifier. -/
def freshId (m : Machine) : String × Machine :=
  (idText m.issued, { m with issued := m.issued + 1 })

/-- Sends a statement to the server. -/
def execute (q : Statement) : ExceptT Export.Refusal (StateM Machine) Unit := fun m =>
  match m.server with
  | none => (.error ⟨"no server"⟩, m)
  | some s =>
    let (result, s) := Export.Server.execute q s
    (result, { m with server := some s })

/-- The statements that have been answered. -/
def performed (m : Machine) : List Statement := (m.server.map (·.answered)).getD []

/-- A described machine as the host of requests. -/
def host (m : Machine) : Host (StateM Machine) where
  directory := m.directory
  environment := m.environment
  readFile path := fun m => (m.readFile path, m)
  program _ := fun m => (m.program, m)
  openStore path := fun m => (m.openStore path, m)
  writeStore path s := fun m => ((), m.writeStore path s)
  connect _ := fun m => (m.server.map fun _ => execute, m)
  freshId := freshId
  now := fun m => (firstMoment + m.issued, m)
  clock := fun m => (0, m)

/-- Handles a command line. -/
def run (m : Machine) (args : List String) : Except CommandError String × Machine :=
  Command.run m.host args m

end Machine

end Command

end CallAtlas
