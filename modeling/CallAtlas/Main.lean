import CallAtlas.Command.Run
import CallAtlas.Program.Document
import CallAtlas.Snapshot.Archive

/-!
# The Command Line

The real machine as the host of requests. A program is read from the file
`program.json` of its directory, which describes it; a store is a directory with a
file `snapshots.json`. Database servers cannot be reached from here.

## Main definitions

* `Command.realHost`: The real machine as the host of requests.
* `main`: Handles the arguments of the process.
-/

namespace CallAtlas

namespace Command

/-- Reads a file. -/
def readRealFile (path : String) : IO (Except FileError String) := do
  try
    return .ok (← IO.FS.readFile path)
  catch e =>
    match e with
    | .noFileOrDirectory .. => return .error .missing
    | .inappropriateType .. => return .error .directory
    | _ => return .error .throughFile

/-- The program that a directory describes. -/
def readProgram (dir : String) : IO (Option Program) := do
  match ← readRealFile (dir ++ "/program.json") with
  | .ok text => return (Json.parse? text).map Program.ofJson
  | .error _ => return none

/-- The file of a store. -/
def storeFile (path : String) : String := path ++ "/snapshots.json"

/-- Opens the store in a directory, which is made if need be. -/
def openRealStore (path : String) : IO (Option Store) := do
  try
    IO.FS.createDirAll path
    match ← readRealFile (storeFile path) with
    | .ok text => return Store.restore? text
    | .error .missing => return some .empty
    | .error _ => return none
  catch _ => return none

/-- A random identifier: 32 digits in five groups, with the digits that say how it was
    made. -/
def randomId : IO String := do
  let digits (n : Nat) : IO String := do
    let ds ← (List.range n).mapM fun _ => return Nat.digitChar (← IO.rand 0 15)
    return String.ofList ds
  let variant ← IO.rand 8 11
  let groups := [← digits 8, ← digits 4, "4" ++ (← digits 3),
    String.singleton (Nat.digitChar variant) ++ (← digits 3), ← digits 12]
  return "-".intercalate groups

/-- The moment the machine was started, in seconds, if it tells. -/
def startOfMachine : IO Int := do
  match ← readRealFile "/proc/stat" with
  | .error _ => return 0
  | .ok text =>
    let line := (text.splitOn "\n").find? fun l => l.startsWith "btime "
    return ((line.map fun l => (l.splitOn " ").getD 1 "").bind String.toInt?).getD 0

/-- The variables that settings look at. -/
def settingVariables : List String :=
  ["CGREFINE_NEO4J_URI", "CGREFINE_NEO4J_USER", "CGREFINE_NEO4J_PASS", "CGREFINE_REFINE_POLICY"]

/-- The real machine as the host of requests. -/
def realHost : IO (Host IO) := do
  let directory := Path.parse (← IO.currentDir).toString.toList
  let set ← settingVariables.filterMapM fun name => do
    return (← IO.getEnv name).map (name, ·)
  return {
    directory
    environment := .ofList set
    readFile := readRealFile
    program := readProgram
    openStore := openRealStore
    writeStore := fun path s => IO.FS.writeFile (storeFile path) s.archive
    connect := fun _ => return none
    freshId := randomId
    now := do return (← startOfMachine) * 1000 + (← IO.monoMsNow)
    clock := do return Int.ofNat (← IO.monoNanosNow) }

end Command

end CallAtlas

open CallAtlas in
/-- Handles the arguments of the process. -/
def main (args : List String) : IO UInt32 := do
  match ← Command.run (← Command.realHost) args with
  | .ok out =>
    IO.print out
    return 0
  | .error e =>
    IO.eprintln ("Error: " ++ e.message)
    return 1
