import CallAtlas.Prune.View
import CallAtlas.Refine.Loop
import CallAtlas.Report.Columns
import CallAtlas.Report.Duration
import CallAtlas.Report.Timestamp
import CallAtlas.Snapshot.Metadata

/-!
# Reports

What the command line prints: the summary of an analysis, the list of snapshots,
and the contents of one.

## Main definitions

* `Report`: What a summary is made of.
* `Report.text`: The summary.
* `Report.snapshots`: The list of snapshots.
* `Report.contents`: The entrypoints and edges of a graph.
-/

namespace CallAtlas

/-- What the summary of an analysis is made of. -/
structure Report where
  module : String
  graph : Graph
  view : View
  outcome : Outcome
  /-- The number of call sites that refinement narrowed. -/
  narrowed : Nat
  /-- The time the analysis took, in nanoseconds. -/
  elapsed : Int

namespace Report

/-- A line of two cells. -/
def line (name value : String) : String := name ++ "\t" ++ value ++ "\n"

/-- The summary of an analysis. -/
def text (r : Report) : String :=
  Columns.layout <|
    line "module" r.module ++
    line "entrypoints" (toString (CallGraph.entrypoints r.graph).length) ++
    line "nodes" (toString (CallGraph.nodeCount r.graph)) ++
    line "edges" (toString r.graph.edges) ++
    line "refinement" (r.outcome.result.text ++ " after " ++ toString r.outcome.passes ++
      " passes (" ++ toString r.narrowed ++ " sites narrowed)") ++
    line "kept nodes" (toString (CallGraph.nodeCount r.view)) ++
    line "kept edges" (toString (CallGraph.countEdges r.view)) ++
    line "elapsed" (Duration.text (Duration.roundToMilli r.elapsed))

/-- A line of the list of snapshots. -/
def snapshotLine (m : Metadata) : String :=
  String.intercalate "\t" [m.id, Timestamp.text m.createdAtMilli, m.label, toString m.nodeCount,
    toString m.edgeCount, m.projectRoot] ++ "\n"

/-- The list of snapshots. -/
def snapshots (list : List Metadata) : String :=
  Columns.layout ("ID\tCREATED\tLABEL\tNODES\tEDGES\tROOT\n" ++ String.join (list.map snapshotLine))

/-- The entrypoints and edges of a graph, by unit. -/
def contents (g : Graph) : String :=
  String.join ((CallGraph.entrypoints g).map fun n => "entrypoint " ++ n.unit.text ++ "\n") ++
  String.join ((CallGraph.edges g).map fun e => e.1.unit.text ++ " -> " ++ e.2.unit.text ++ "\n")

end Report

end CallAtlas
