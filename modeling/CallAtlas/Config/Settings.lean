import CallAtlas.Pattern.Parse
import CallAtlas.Refine.Policy
import CallAtlas.Text.Quoted
import CallAtlas.Yaml.Record

/-!
# Settings

What an analysis is told: where the project is, what to analyse and how far to
refine and prune, and where results go. Every setting has a default. A document of
settings replaces those it names, and variables of the environment replace some of
them again.

Settings can be read and still make no sense together with the policies there are;
checking them is a step of its own.

## Main definitions

* `Settings`: What an analysis is told.
* `Settings.withDocument`: Replaces the settings that a document names.
* `Settings.withVariables`: Replaces the settings that variables name.
* `Settings.check`: Whether the settings make sense.
-/

namespace CallAtlas

/-- What an analysis is told. -/
structure Settings where
  projectRoot : String := "."
  applicationOnly : Bool := false
  pruneDepth : Int := 1
  policy : String := "tuned"
  includes : String := ""
  excludes : String := ""
  serverAddress : String := "bolt://localhost:7687"
  serverUser : String := "neo4j"
  serverPassword : String := ""
  snapshotStore : String := ".cgrefine"
  metricsAddress : String := ""
deriving DecidableEq, Inhabited, Repr

namespace Settings

/-- Replaces settings by the fields of a section of a document. -/
def withSection (d : Yaml.Document) (known : List String)
    (set : Settings → String → Yaml.Place → Except Yaml.Problem Settings)
    (s : Settings) (p : Yaml.Place) : Except Yaml.Problem Settings := do
  (← p.fields d known).foldlM (fun s f => set s f.1 f.2) s

/-- Replaces the settings of the refinement. -/
def withRefine (d : Yaml.Document) : Settings → Yaml.Place → Except Yaml.Problem Settings :=
  withSection d ["policy", "include", "exclude"] fun s name p =>
    match name with
    | "policy" => (p.text d s.policy).map fun t => { s with policy := t }
    | "include" => (p.text d s.includes).map fun t => { s with includes := t }
    | _ => (p.text d s.excludes).map fun t => { s with excludes := t }

/-- Replaces the settings of the analysis. -/
def withAnalysis (d : Yaml.Document) : Settings → Yaml.Place → Except Yaml.Problem Settings :=
  withSection d ["application_only", "prune_depth", "refine"] fun s name p =>
    match name with
    | "application_only" => (p.bool d s.applicationOnly).map fun b => { s with applicationOnly := b }
    | "prune_depth" => (p.int d s.pruneDepth).map fun n => { s with pruneDepth := n }
    | _ => withRefine d s p

/-- Replaces the settings of the server. -/
def withServer (d : Yaml.Document) : Settings → Yaml.Place → Except Yaml.Problem Settings :=
  withSection d ["uri", "user", "password"] fun s name p =>
    match name with
    | "uri" => (p.text d s.serverAddress).map fun t => { s with serverAddress := t }
    | "user" => (p.text d s.serverUser).map fun t => { s with serverUser := t }
    | _ => (p.text d s.serverPassword).map fun t => { s with serverPassword := t }

/-- Replaces the settings that a document names. -/
def withRoot (d : Yaml.Document) : Settings → Yaml.Place → Except Yaml.Problem Settings :=
  withSection d ["project", "analysis", "neo4j", "snapshot", "metrics"] fun s name p =>
    match name with
    | "project" =>
      withSection d ["root"] (fun s _ p =>
        (p.text d s.projectRoot).map fun t => { s with projectRoot := t }) s p
    | "analysis" => withAnalysis d s p
    | "neo4j" => withServer d s p
    | "snapshot" =>
      withSection d ["db"] (fun s _ p =>
        (p.text d s.snapshotStore).map fun t => { s with snapshotStore := t }) s p
    | _ =>
      withSection d ["addr"] (fun s _ p =>
        (p.text d s.metricsAddress).map fun t => { s with metricsAddress := t }) s p

/-- Replaces the settings that the first document of a text names. -/
def withDocument (s : Settings) (text : String) : Except Yaml.Problem Settings := do
  match ← Yaml.Document.read text with
  | none => .ok s
  | some d => withRoot d s { node := d.root }

/-- Replaces the settings that variables name. An empty variable names nothing. -/
def withVariables (s : Settings) (lookup : String → Option String) : Settings :=
  let value (name old : String) : String :=
    match lookup name with
    | some v => if v = "" then old else v
    | none => old
  { s with
    serverAddress := value "CGREFINE_NEO4J_URI" s.serverAddress
    serverUser := value "CGREFINE_NEO4J_USER" s.serverUser
    serverPassword := value "CGREFINE_NEO4J_PASS" s.serverPassword
    policy := value "CGREFINE_REFINE_POLICY" s.policy }

/-- Why settings make no sense. -/
inductive Fault where
  | unknownPolicy (name : String)
  | negativeDepth (depth : Int)
  | badPattern (e : PatternError)
deriving DecidableEq

/-- How a fault is described. -/
def Fault.message : Fault → String
  | unknownPolicy name =>
    "unknown refine policy " ++ Text.quoted name ++ " (want one of " ++ Policy.nameList ++ ")"
  | negativeDepth d => "prune_depth must not be negative, got " ++ toString d
  | badPattern e => "invalid refine pattern: " ++ e.message

/-- Whether the settings make sense. -/
def check (s : Settings) : Except Fault Unit :=
  if !Policy.isName s.policy then .error (.unknownPolicy s.policy)
  else if s.pruneDepth < 0 then .error (.negativeDepth s.pruneDepth)
  else
    match Pattern.parse s.includes with
    | .error e => .error (.badPattern e)
    | .ok _ =>
      match Pattern.parse s.excludes with
      | .error e => .error (.badPattern e)
      | .ok _ => .ok ()

end Settings

end CallAtlas
