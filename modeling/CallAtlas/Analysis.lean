import CallAtlas.Config.Settings
import CallAtlas.Program.Describe
import CallAtlas.Program.Refiner
import CallAtlas.Prune.Find
import CallAtlas.Report.Basic

/-!
# Analyses

One run over a program: the closure from its entrypoints, the refinement of its
dispatching sites, and the pruning of the refined graph to what matters to the
application. The graph itself is frozen once it is built; what refinement and pruning
find is a view of it.

## Main definitions

* `Analysis`: The result of a run.
* `AnalysisError`: Why a run gave no result.
* `Analysis.run`: A run.
* `Analysis.report`: The summary of a run.
* `Analysis.model`: The rows of a run.
-/

namespace CallAtlas

/-- The result of a run. -/
structure Analysis where
  project : Project
  program : Program
  closure : Closure World
  graph : Graph
  refiner : Refiner
  outcome : Outcome
  overlay : Overlay
  keep : IdSet
  view : View

/-- Why a run gave no result. -/
inductive AnalysisError where
  | noEntrypoints (modulePath : String)
  | cancelled (cause : EndCause)
  | policy (e : PolicyError)
  | prune (e : PruneError)

/-- What a caller is told. -/
def AnalysisError.message : AnalysisError → String
  | noEntrypoints path => "no entrypoints found in " ++ path
  | cancelled cause => cause.analysisMessage
  | policy e => e.message
  | prune e => e.message

namespace Analysis

/-- A run over a program. -/
def run (project : Project) (p : Program) (s : Settings) : Except AnalysisError Analysis :=
  let starts := p.entrypoints project
  if starts.isEmpty then .error (.noEntrypoints project.modulePath)
  else
    let (closure, ended) := p.closureOf project starts 0 s.applicationOnly .unbounded
    match ended with
    | some cause => .error (.cancelled cause)
    | none =>
      let graph := closure.graph.freeze
      match Policy.byName s.policy s.includes s.excludes with
      | .error e => .error (.policy e)
      | .ok policy =>
        let (outcome, failed, state) :=
          Refine.run (Refiner.query p graph) { policy, life := .unbounded, query := {} }
        match failed with
        | some (.cancelled cause) | some (.query cause) => .error (.cancelled cause)
        | none =>
          let overlay := state.query.overlay graph
          let accept := KeepPolicy.application (p.loader project)
          match Prune.findNodes (View.refined graph overlay) accept s.pruneDepth .unbounded with
          | .error e => .error (.prune e)
          | .ok keep =>
            .ok { project, program := p, closure, graph, refiner := state.query, outcome, overlay
                  keep, view := View.of graph keep overlay }

/-- The summary of a run that took some nanoseconds. -/
def report (a : Analysis) (elapsed : Int) : Report :=
  { module := a.project.modulePath, graph := a.graph, view := a.view, outcome := a.outcome
    narrowed := a.refiner.narrowed.size, elapsed }

/-- The rows of a run. -/
def model (a : Analysis) : Model :=
  Model.build a.graph a.view (a.program.describer a.project)

/-- The rows of the packages of a run. -/
def packages (a : Analysis) : List PackageRow := a.program.projectPackages a.project

end Analysis

end CallAtlas
