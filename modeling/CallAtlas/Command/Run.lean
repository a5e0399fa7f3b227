import CallAtlas.Analysis
import CallAtlas.Command.Host
import CallAtlas.Command.Request
import CallAtlas.Export.Address
import CallAtlas.Project.Directive

/-!
# Handling Requests

A request is handled in a fixed order, and the first thing that fails ends it: the
command line is read, then the settings, then what the verb needs. A request that
fails prints nothing.

The settings come from a file, which need not be there; variables override it, those
of the environment before those of a file of variables; flags override both.

## Main definitions

* `CommandError`: Why a request failed.
* `Command.settings`: The settings of a request.
* `Command.analyse`: The analysis that the settings ask for.
* `Command.run`: Handles a command line and gives what it prints.
-/

namespace CallAtlas

namespace Command

/-- Why a request failed. -/
inductive CommandError where
  | usage (e : UsageError)
  | settingsUnreadable (path : String) (e : FileError)
  | settingsMalformed (path : String)
  | settingsFault (e : Settings.Fault)
  | moduleFileUnreadable (path : String) (e : FileError)
  | noModuleDirective
  | noProgram (dir : String)
  | analysis (e : AnalysisError)
  | noPassword
  | addressUnusable (address : String)
  | serverUnreachable (address : String)
  | statementRefused (e : Export.Refusal)
  | storeUnavailable (path : String)
  | store (e : StoreError)

/-- What a caller is told. -/
def CommandError.message : CommandError → String
  | usage e => e.message
  | settingsUnreadable path e => "failed to load config: " ++ e.message path
  | settingsMalformed path => "failed to load config: parsing " ++ path
  | settingsFault e => e.message
  | moduleFileUnreadable path e =>
    "cannot detect Go module: cannot read go.mod: " ++ e.message path
  | noModuleDirective => "cannot detect Go module: module directive not found in go.mod"
  | noProgram dir => "loading packages: no program in " ++ dir
  | analysis e => e.message
  | noPassword => "neo4j password is required (neo4j.password or CGREFINE_NEO4J_PASS)"
  | addressUnusable address => "failed to create neo4j driver: " ++ address
  | serverUnreachable address => "failed to reach neo4j at " ++ address
  | statementRefused e => e.text
  | storeUnavailable path => "opening snapshot store " ++ path
  | store e => e.message

variable {m : Type → Type} [Monad m]

/-- A file's text, or nothing if there is no such file. -/
def optionalFile (host : Host m) (path : String) : ExceptT CommandError m (Option String) := do
  match ← host.readFile path with
  | .ok text => pure (some text)
  | .error .missing => pure none
  | .error e => throw (.settingsUnreadable path e)

/-- The variables of a file that need not be there, nor be well formed. -/
def fileVariables (host : Host m) : m Variables := do
  match ← host.readFile ".env" with
  | .ok text => pure ((Variables.parse? text).getD .empty)
  | .error _ => pure .empty

/-- The settings of a request. -/
def settings (host : Host m) (r : Request) : ExceptT CommandError m Settings := do
  let fromFile ← ExceptT.lift (fileVariables host)
  let text ← if r.settingsFile = "" then pure none else optionalFile host r.settingsFile
  let read : Except Yaml.Problem Settings :=
    match text with
    | some t => Settings.withDocument {} t
    | none => .ok {}
  match read with
  | .error _ => throw (.settingsMalformed r.settingsFile)
  | .ok s =>
    let s := s.withVariables (Variables.lookup host.environment fromFile)
    let s := if r.dir = "" then s else { s with projectRoot := r.dir }
    let s := if r.metricsAddress = "" then s else { s with metricsAddress := r.metricsAddress }
    match s.check with
    | .error e => throw (.settingsFault e)
    | .ok _ => pure s

/-- The directory that the settings name. -/
def projectDir (host : Host m) (s : Settings) : String :=
  String.ofList (Path.within host.directory (.parse s.projectRoot.toList)).text

/-- The project in a directory. -/
def projectIn (host : Host m) (dir : String) : ExceptT CommandError m Project := do
  let path := String.ofList (Path.parse (dir ++ "/go.mod").toList).text
  match ← host.readFile path with
  | .error e => throw (.moduleFileUnreadable path e)
  | .ok text =>
    match ModuleFile.modulePath? text with
    | none => throw .noModuleDirective
    | some modulePath => pure { modulePath, dir }

/-- The analysis that the settings ask for. -/
def analyse (host : Host m) (s : Settings) : ExceptT CommandError m Analysis := do
  let dir := projectDir host s
  let project ← projectIn host dir
  match ← host.program dir with
  | none => throw (.noProgram dir)
  | some program =>
    match Analysis.run project program s with
    | .error e => throw (.analysis e)
    | .ok a => pure a

/-- Prints the report of an analysis. -/
def build (host : Host m) (s : Settings) : ExceptT CommandError m String := do
  let start ← host.clock
  let a ← analyse host s
  let stop ← host.clock
  pure (a.report (stop - start)).text

/-- What is printed when a graph has been loaded into a database. -/
def loadedText : String :=
  String.join (List.map (· ++ "\n") [
    "Useful Cypher queries:",
    "  // Pruned, refined application call graph",
    "  MATCH (a:CGNode \x7bkept: true\x7d)-[r:CALLS \x7bkept: true\x7d]->(b) " ++
      "RETURN a.full_name, b.full_name, r.site",
    "  // Interface and function value calls removed by refinement",
    "  MATCH (a:CGNode \x7bkept: true\x7d)-[r:CALLS \x7bkept: false, is_dynamic: true\x7d]->" ++
      "(b:CGNode \x7bkept: true\x7d) RETURN a.full_name, b.full_name",
    "  // Entrypoints",
    "  MATCH (n:CGNode \x7bentrypoint: true\x7d) RETURN n.full_name"])

/-- Loads the graph into a database. Nothing is analysed without a password, and no
    server is asked for before the analysis is done. -/
def load (host : Host m) (s : Settings) (clean : Bool) : ExceptT CommandError m String := do
  if s.serverPassword = "" then throw .noPassword
  let a ← analyse host s
  if !Address.isUsable s.serverAddress then throw (.addressUnusable s.serverAddress)
  match ← host.connect s.serverAddress with
  | none => throw (.serverUnreachable s.serverAddress)
  | some execute =>
    ExceptT.adapt .statementRefused do
      if clean then Export.send execute Export.clean
      Export.load execute a.packages a.model
    pure loadedText

/-- Works on the store that the settings name. -/
def withStore {α : Type} (host : Host m) (s : Settings)
    (work : Store → ExceptT CommandError m α) : ExceptT CommandError m α := do
  match ← host.openStore s.snapshotStore with
  | none => throw (.storeUnavailable s.snapshotStore)
  | some store => work store

/-- Passes on what a call to a store gives. -/
def ofStore {α : Type} : Except StoreError α → ExceptT CommandError m α
  | .error e => throw (.store e)
  | .ok a => pure a

/-- Stores the graph, or what the analysis keeps of it, and prints the identifier. -/
def save (host : Host m) (s : Settings) (label : String) (full : Bool) :
    ExceptT CommandError m String := do
  let a ← analyse host s
  withStore host s fun store => do
    let id ← host.freshId
    let now ← host.now
    let saved :=
      if full then store.save .unbounded a.graph id now a.project.dir label
      else store.save .unbounded a.view id now a.project.dir label
    let (store, data) ← ofStore saved
    host.writeStore s.snapshotStore store
    pure (data.id ++ "\n")

/-- Prints the list of snapshots. -/
def list (host : Host m) (s : Settings) : ExceptT CommandError m String :=
  withStore host s fun store => do
    pure (Report.snapshots (← ofStore (store.list .unbounded)))

/-- Prints what a snapshot holds. -/
def inspect (host : Host m) (s : Settings) (id : String) : ExceptT CommandError m String :=
  withStore host s fun store => do
    let (graph, data) ← ofStore (store.load .unbounded 0 id)
    pure (Report.snapshots [data] ++ Report.contents graph)

/-- Removes a snapshot and prints nothing. -/
def remove (host : Host m) (s : Settings) (id : String) : ExceptT CommandError m String :=
  withStore host s fun store => do
    host.writeStore s.snapshotStore (← ofStore (store.delete .unbounded id))
    pure ""

/-- How a verb is used. -/
def usage (v : Verb) : String :=
  "Usage:\n" ++
    (if v = .root then "" else "  " ++ v.path ++ " [flags]\n") ++
    String.join (v.children.map fun c => "  " ++ c.path ++ "\n") ++
    "\nFlags:\n" ++
    String.join ((v.ownFlags ++ Verb.sharedFlags ++ [Verb.helpFlag]).map fun f =>
      "  " ++ f.title ++ "\n")

/-- Handles a request. -/
def perform (host : Host m) (r : Request) : ExceptT CommandError m String := do
  match r.action with
  | .help v => pure (usage v)
  | action =>
    let s ← settings host r
    match action with
    | .build => build host s
    | .load clean => load host s clean
    | .save label full => save host s label full
    | .list => list host s
    | .inspect id => inspect host s id
    | .remove id => remove host s id
    | .help v => pure (usage v)

/-- Handles a command line and gives what it prints. -/
def run (host : Host m) (args : List String) : m (Except CommandError String) :=
  match Request.read args with
  | .error e => pure (.error (.usage e))
  | .ok r => (perform host r).run

end Command

end CallAtlas
