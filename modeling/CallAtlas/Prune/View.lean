import CallAtlas.Graph.Reach

/-!
# Pruned Views

A view shows a stored graph through a filter: only the nodes with a kept number
are to be seen, and of the edges between them only those that are not hidden.
Nothing is removed from the graph for it. The filter holds numbers and not
nodes, so it may name numbers that no node has, and the graph may be edited
behind its back; every answer is read off the graph as it is.

Edits made through a view change the graph and then tidy the filter, and only
if the graph accepted them.

## Main definitions

* `Overlay`: The callees hidden from each caller.
* `Filter`: What a view keeps and hides.
* `View`: A graph with a filter in front of it.
* `View.refined`: The view of what stays reachable when edges are hidden.
* `View.hide`, `View.removeNode`, `View.removeEdge`, `View.addEdge`: The edits.

## Theorems

* `Overlay.hides_hide`, `Overlay.hides_unhide`, `Overlay.hides_forget`, `Overlay.hides_trim`:
  What is hidden after each change of an overlay.
-/

namespace CallAtlas

/-- The numbers of the callees hidden from each caller. -/
abbrev Overlay := Table Int IdSet

namespace Overlay

/-- The callees hidden from a caller. -/
def hiddenFrom (o : Overlay) (src : Int) : IdSet := (o.find? src).getD .empty

/-- Whether an edge is hidden. -/
def hides (o : Overlay) (src dst : Int) : Bool := (o.hiddenFrom src).contains dst

/-- Hides an edge. -/
def hide (o : Overlay) (src dst : Int) : Overlay :=
  o.insert src ((o.hiddenFrom src).insert dst)

/-- Shows an edge again. -/
def unhide (o : Overlay) (src dst : Int) : Overlay :=
  match o.find? src with
  | some s => o.insert src (s.erase dst)
  | none => o

/-- Forgets a node, both as a caller and as a callee. -/
def forget (o : Overlay) (id : Int) : Overlay :=
  (o.erase id).mapValues (·.erase id)

/-- The overlay without the callers from whom nothing is hidden. -/
def trim (o : Overlay) : Overlay := o.filter fun _ s => !s.isEmpty

theorem hides_iff {o : Overlay} {a b : Int} : o.hides a b ↔ b ∈ o.hiddenFrom a := by
  rw [hides, IdSet.contains_iff]

theorem hides_hide {o : Overlay} {src dst a b : Int} :
    (o.hide src dst).hides a b ↔ o.hides a b ∨ (a = src ∧ b = dst) := by
  simp only [hides_iff, hiddenFrom, hide, Table.find?_insert]
  by_cases h : src = a
  · subst h
    simp [or_comm]
  · simp [h, Ne.symm h]

theorem hides_unhide {o : Overlay} {src dst a b : Int} :
    (o.unhide src dst).hides a b ↔ o.hides a b ∧ ¬ (a = src ∧ b = dst) := by
  simp only [hides_iff, hiddenFrom, unhide]
  cases hs : o.find? src with
  | none =>
      -- Nothing is hidden from a caller that the overlay does not name.
      refine ⟨fun h => ⟨h, ?_⟩, fun h => h.1⟩
      rintro ⟨rfl, rfl⟩
      simp [hs] at h
  | some s =>
      simp only [Table.find?_insert]
      by_cases h : src = a
      · subst h
        simp [hs]
      · simp [h, Ne.symm h]

theorem hides_forget {o : Overlay} {i a b : Int} :
    (o.forget i).hides a b ↔ o.hides a b ∧ a ≠ i ∧ b ≠ i := by
  simp only [hides_iff, hiddenFrom, forget, Table.find?_mapValues, Table.find?_erase]
  by_cases h : i = a
  · simp [h]
  · have hne : a ≠ i := Ne.symm h
    cases o.find? a with
    | none => simp [h]
    | some s => simp [h, hne]

/-- An overlay without the callers from whom nothing is hidden hides the same. -/
theorem hides_trim (o : Overlay) (a b : Int) : o.trim.hides a b = o.hides a b := by
  unfold hides hiddenFrom trim
  rw [Table.find?_filter]
  cases o.find? a with
  | none => rfl
  | some s =>
      by_cases hs : s.isEmpty
      · -- An empty set hides nothing, whether it is there or not.
        have hempty : s.toList = [] := List.isEmpty_iff.1 hs
        have hnone : b ∉ s := by
          rw [← IdSet.mem_toList, hempty]
          exact List.not_mem_nil
        simp [Option.filter_some, hs, IdSet.contains, hnone]
      · simp [Option.filter_some, hs]

end Overlay

/-- What a view keeps and hides. -/
structure Filter where
  keep : IdSet := .empty
  hidden : Overlay := .empty
deriving DecidableEq, Inhabited

/-- A graph with a filter in front of it. -/
structure View where
  graph : Graph
  filter : Filter
deriving DecidableEq, Inhabited

namespace View

/-- The view of a graph that keeps some numbers and hides some edges. -/
def of (g : Graph) (keep : IdSet) (hidden : Overlay) : View :=
  ⟨g, ⟨keep, hidden.trim⟩⟩

/-- Whether a node is to be seen. -/
def contains (v : View) (n : Node) : Bool :=
  v.filter.keep.contains n.id && v.graph.contains n

/-- Whether an edge of the graph is to be seen, provided that its caller is. -/
def shows (v : View) (src dst : Node) : Bool :=
  v.filter.keep.contains dst.id && !v.filter.hidden.hides src.id dst.id

/-- The nodes of a list that are kept. -/
def kept (v : View) (ns : List Node) : List Node :=
  ns.filter fun n => v.filter.keep.contains n.id

/-- The callees of a node. -/
def succs (v : View) (n : Node) : List Node :=
  if v.contains n then (v.graph.succs n).filter (v.shows n) else []

/-- The callers of a node. -/
def preds (v : View) (n : Node) : List Node :=
  if v.contains n then
    (v.graph.preds n).filter fun p =>
      v.filter.keep.contains p.id && !v.filter.hidden.hides p.id n.id
  else []

/-- Whether one node calls another. -/
def hasEdge (v : View) (src dst : Node) : Bool :=
  v.contains src && v.contains dst && !v.filter.hidden.hides src.id dst.id &&
    v.graph.hasEdge src dst

instance : CallGraph View where
  fakeRoot v := (CallGraph.fakeRoot v.graph).filter v.contains
  fakeWorldClinit v := (CallGraph.fakeWorldClinit v.graph).filter v.contains
  entrypoints v := v.kept (CallGraph.entrypoints v.graph)
  node? v id := (v.graph.node? id).filter v.contains
  lookup v u c := (v.graph.lookup u c).filter v.contains
  nodesOf v u := v.kept (CallGraph.nodesOf v.graph u)
  nodes v := v.kept v.graph.nodes
  nodeCount v := (v.kept v.graph.nodes).length
  maxId v := CallGraph.maxId v.graph
  contains := contains
  succs := succs
  preds := preds
  succCount v n := (v.succs n).length
  predCount v n := (v.preds n).length
  hasEdge := hasEdge
  callSites v n := if v.contains n then v.graph.callSites n else []
  targets v n site :=
    if v.contains n then (v.graph.targets n site).filter (v.shows n) else []
  sitesBetween v src dst := if v.hasEdge src dst then v.graph.sitesBetween src dst else []

/-- The view of the nodes that stay reachable from the synthetic roots when
    some edges are hidden. Pruning walks this view, so that a callee that only
    hidden edges reach is not kept for their sake. -/
def refined (g : Graph) (hidden : Overlay) : View :=
  let all := View.of g
    (CallGraph.reachable g [CallGraph.fakeRoot g, CallGraph.fakeWorldClinit g]) hidden
  let keep := CallGraph.reachable all
    [CallGraph.fakeRoot all, CallGraph.fakeWorldClinit all]
  { all with filter := { all.filter with keep } }

/-- Hides an edge without touching the graph. -/
def hide (v : View) (src dst : Node) : View :=
  { v with filter := { v.filter with hidden := v.filter.hidden.hide src.id dst.id } }

/-- Removes a node from the graph and forgets it in the filter. -/
def removeNode (v : View) (n : Option Node) : Except GraphError View := do
  let g ← v.graph.removeNode n
  match n with
  | none => return { v with graph := g }
  | some n =>
    return ⟨g, ⟨v.filter.keep.erase n.id, v.filter.hidden.forget n.id⟩⟩

/-- Shows an edge again whose ends are given. -/
def unhide (v : View) (src dst : Option Node) : View :=
  match src, dst with
  | some s, some d =>
    { v with filter := { v.filter with hidden := v.filter.hidden.unhide s.id d.id } }
  | _, _ => v

/-- Removes an edge from the graph and from the overlay. -/
def removeEdge (v : View) (src dst : Option Node) : Except GraphError View := do
  let g ← v.graph.removeEdge src dst
  return { v with graph := g }.unhide src dst

/-- Whether an argument is a node that is to be seen. -/
def sees (v : View) (n : Option Node) : Bool := n.any v.contains

/-- Adds an edge between nodes that are to be seen, and shows it again if it was
    hidden. An edge to any other node is passed over in silence. -/
def addEdge (v : View) (src dst : Option Node) : Except GraphError View :=
  if v.sees src && v.sees dst then do
    let g ← v.graph.addEdge src dst
    return { v with graph := g }.unhide src dst
  else return v

end View

end CallAtlas
