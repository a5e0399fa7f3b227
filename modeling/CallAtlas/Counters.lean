import CallAtlas.Analysis

/-!
# Counters

What the parts of an analysis count while they run. A counter that did not move is
not there.

## Main definitions

* `Counters`: Counters by name.
* `Counters.add`: Moves a counter.
* `Counters.closure`, `Counters.loop`, `Counters.analysis`: What runs count.
-/

namespace CallAtlas

/-- Counters by name. -/
abbrev Counters := Table String Int

namespace Counters

/-- Moves a counter. -/
def add (c : Counters) (name : String) (n : Int) : Counters :=
  if n = 0 then c else c.insert name ((c.find? name).getD 0 + n)

/-- What a closure counts. -/
def closure {σ : Type} (c : Counters) (k : Closure σ) (ended : Option EndCause) : Counters :=
  let c := c.add ("cha_builds_total:" ++ if ended.isSome then "cancelled" else "complete") 1
  let c := c.add "cha_nodes_created_total" k.created
  let c := c.add "cha_edges_total" k.graph.edges
  let c := c.add "cha_clinit_edges_total" k.initializers
  c.add "cha_worklist_pops_total" k.pops

/-- What the pass loop counts. A loop that failed has no outcome. -/
def loop (c : Counters) (out : Outcome) (failed : Bool) : Counters :=
  let c := c.add "refine_passes_total" out.passes
  if failed then c else c.add ("refine_outcomes_total:" ++ out.result.text) 1

/-- What a view counts when a node or an edge is removed. -/
def removal (c : Counters) (what : String) : Counters :=
  c.add ("prune_view_removals_total:" ++ what) 1

/-- What an analysis counts. -/
def analysis (c : Counters) (a : Analysis) : Counters :=
  let c := (c.closure a.closure none).loop a.outcome false
  let c := c.add "refine_sites_narrowed_total" a.refiner.narrowed.size
  c.add "refine_sites_declined_total" a.refiner.declined

end Counters

end CallAtlas
