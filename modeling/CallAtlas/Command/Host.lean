import CallAtlas.Config.Variables
import CallAtlas.Export.Load
import CallAtlas.Path
import CallAtlas.Program.Facts
import CallAtlas.Snapshot.Store

/-!
# Hosts

What a request needs of the machine it is handled on: files, variables, programs,
stores, database servers, clocks and fresh identifiers. The monad is a parameter, so a
request can be handled on a real machine as well as on one that is only described.

## Main definitions

* `Host`: The machine a request is handled on.
* `FileError`: Why a file cannot be read.
-/

namespace CallAtlas

namespace Command

/-- Why a file cannot be read. -/
inductive FileError where
  /-- There is no such file. -/
  | missing
  /-- It is a directory. -/
  | directory
  /-- The way to it leads through a file. -/
  | throughFile
deriving DecidableEq

namespace FileError

/-- What a caller is told about a path. -/
def message (path : String) : FileError → String
  | missing => "open " ++ path ++ ": no such file or directory"
  | directory => "read " ++ path ++ ": is a directory"
  | throughFile => "open " ++ path ++ ": not a directory"

end FileError

/-- The machine a request is handled on. -/
structure Host (m : Type → Type) where
  /-- The directory that paths start from. -/
  directory : Path
  /-- The variables of the environment. -/
  environment : Variables
  /-- The text of the file at a path. -/
  readFile : String → m (Except FileError String)
  /-- The program in a directory. -/
  program : String → m (Option Program)
  /-- The store at a path, which is made if there is none. Nothing if neither works. -/
  openStore : String → m (Option Store)
  /-- Keeps what a store has become. -/
  writeStore : String → Store → m Unit
  /-- A connection to the server at an address, which takes statements. Nothing if the
      server cannot be reached. -/
  connect : String → m (Option (Statement → ExceptT Export.Refusal m Unit))
  /-- An identifier that has never been used. -/
  freshId : m String
  /-- The time in milliseconds, as snapshots note it. -/
  now : m Int
  /-- The time in nanoseconds, as durations are measured. -/
  clock : m Int

end Command

end CallAtlas
