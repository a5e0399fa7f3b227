import CallAtlas.Graph.Query

/-!
# The Exported Model

A call graph flattened into rows: one for each node and one for each edge, each
marked as kept if it is also to be seen through a view. What a row says about the
source of a unit comes from a describer.

## Main definitions

* `UnitInfo`: What is known about the source of a unit.
* `Describer`: Who knows about units and call sites.
* `FuncRow`, `CallRow`, `Model`: The rows.
* `Model.build`: The rows of a graph.
* `Model.kept`: How many rows are kept.
-/

namespace CallAtlas

/-- What is known about the source of a unit. -/
structure UnitInfo where
  name : String
  fullName : String
  package : String
  file : String
  line : Int
  loader : String
deriving DecidableEq, Inhabited

/-- Who knows about units and call sites. -/
structure Describer where
  describe : CodeUnit → UnitInfo
  siteLabel : Node → CallSite → String

/-- A row for a node. -/
structure FuncRow where
  id : Int := 0
  name : String := ""
  fullName : String := ""
  package : String := ""
  file : String := ""
  line : Int := 0
  context : String := ""
  loader : String := ""
  kind : String := ""
  entrypoint : Bool := false
  /-- Whether the node survives pruning. -/
  kept : Bool := false
deriving DecidableEq, Inhabited

/-- A row for an edge. -/
structure CallRow where
  caller : Int := 0
  callee : Int := 0
  /-- The number of sites that may make the call. -/
  sites : Int := 0
  /-- Whether one of them dispatches. -/
  isDynamic : Bool := false
  /-- The label of the first of them. -/
  site : String := ""
  /-- Whether the edge survives refinement and pruning. -/
  kept : Bool := false
deriving DecidableEq, Inhabited

/-- The rows of a graph. -/
structure Model where
  funcs : List FuncRow := []
  calls : List CallRow := []
deriving DecidableEq, Inhabited

namespace Model

variable {G V : Type} [CallGraph G] [CallGraph V]

/-- The row of a node. -/
def funcRow (full : G) (view : V) (d : Describer) (n : Node) : FuncRow :=
  let info := d.describe n.unit
  { id := n.id, name := info.name, fullName := info.fullName, package := info.package
    file := info.file, line := info.line, context := n.context.text, loader := info.loader
    kind := n.kind.text
    entrypoint := (CallGraph.entrypoints full).any (·.id = n.id)
    kept := CallGraph.contains view n }

/-- The site with the lowest program counter, the first of those that share it. -/
def firstSite : List CallSite → Option CallSite
  | [] => none
  | s :: rest =>
    match firstSite rest with
    | none => some s
    | some t => if t.pc < s.pc then some t else some s

/-- The row of an edge. -/
def callRow (full : G) (view : V) (d : Describer) (e : Node × Node) : CallRow :=
  let sites := CallGraph.sitesBetween full e.1 e.2
  { caller := e.1.id, callee := e.2.id, sites := sites.length
    isDynamic := sites.any (·.kind.isOverriding)
    site := (firstSite sites).elim "" (d.siteLabel e.1)
    kept := CallGraph.hasEdge view e.1 e.2 }

/-- The rows of a graph, of which those are kept that a view shows. -/
def build (full : G) (view : V) (d : Describer) : Model :=
  { funcs := (CallGraph.nodes full).map (funcRow full view d)
    calls := (CallGraph.edges full).map (callRow full view d) }

/-- The numbers of node rows and of edge rows that are kept. -/
def kept (m : Model) : Nat × Nat :=
  (m.funcs.countP (·.kept), m.calls.countP (·.kept))

end Model

end CallAtlas
