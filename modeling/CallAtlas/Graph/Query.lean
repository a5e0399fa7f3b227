import CallAtlas.Graph.Edit

/-!
# Asking a Call Graph

Closure, pruning, refinement, storage and export read call graphs and do not
care whether the graph is stored as such or seen through a filter. `CallGraph`
is what they may ask. The stored graph answers here; a filtered one answers in
the module of views.

A node that is not in the graph has no edges and no sites, so every question
about a removed node or a node of another graph has an empty answer rather than
an error. Lists of nodes ascend by number, except that entrypoints stand in
order of registration, and sites in order of recording.

## Main definitions

* `CallGraph`: What a call graph can be asked.
* `CallGraph.edges`: The edges, by caller and then by callee.
* `CallGraph.countEdges`: How many edges there are to see.
* `CallGraph.visitEdges`: A walk over the edges that may stop early.
* `CallGraph.findEdge`: Whether some edge satisfies a test.
-/

namespace CallAtlas

/-- What a call graph can be asked. -/
class CallGraph (G : Type) where
  /-- The node that calls every entrypoint. -/
  fakeRoot : G → Option Node
  /-- The node that calls every static initializer. -/
  fakeWorldClinit : G → Option Node
  /-- The entrypoints in order of registration. -/
  entrypoints : G → List Node
  /-- The node with a given number. -/
  node? : G → Int → Option Node
  /-- The node of a unit in a context. -/
  lookup : G → CodeUnit → Context → Option Node
  /-- The nodes of a unit. -/
  nodesOf : G → CodeUnit → List Node
  /-- All nodes. -/
  nodes : G → List Node
  /-- The number of nodes. -/
  nodeCount : G → Int
  /-- The highest number ever handed out. -/
  maxId : G → Int
  /-- Whether a node is one of this graph. -/
  contains : G → Node → Bool
  /-- The callees of a node. -/
  succs : G → Node → List Node
  /-- The callers of a node. -/
  preds : G → Node → List Node
  /-- The number of callees. -/
  succCount : G → Node → Nat
  /-- The number of callers. -/
  predCount : G → Node → Nat
  /-- Whether one node calls another. -/
  hasEdge : G → Node → Node → Bool
  /-- The sites recorded for a node, also those that resolved to nothing. -/
  callSites : G → Node → List CallSite
  /-- The callees attributed to a site of a node. -/
  targets : G → Node → CallSite → List Node
  /-- The sites of one node that may invoke another. -/
  sitesBetween : G → Node → Node → List CallSite

namespace Graph

/-- The node with a given number. -/
def node? (g : Graph) (id : Int) : Option Node := (g.slot? id).map (·.node)

/-- The nodes with the numbers of a list. -/
def nodesWith (g : Graph) (ids : List Int) : List Node := ids.filterMap g.node?

/-- The nodes by number. -/
def nodes (g : Graph) : List Node := g.slots.toList.filterMap fun s => s.map (·.node)

/-- Whether a node is one of this graph. -/
def contains (g : Graph) (n : Node) : Bool := (g.slotOf? n).isSome

/-- The callees of a node. -/
def succs (g : Graph) (n : Node) : List Node :=
  match g.slotOf? n with
  | some s => g.nodesWith s.succs.toList
  | none => []

/-- The callers of a node. -/
def preds (g : Graph) (n : Node) : List Node :=
  match g.slotOf? n with
  | some s => g.nodesWith s.preds.toList
  | none => []

/-- The number of callees. -/
def succCount (g : Graph) (n : Node) : Nat :=
  match g.slotOf? n with
  | some s => s.succs.size
  | none => 0

/-- The number of callers. -/
def predCount (g : Graph) (n : Node) : Nat :=
  match g.slotOf? n with
  | some s => s.preds.size
  | none => 0

/-- Whether one node calls another. -/
def hasEdge (g : Graph) (src dst : Node) : Bool :=
  match g.slotOf? src with
  | some s => g.contains dst && s.succs.contains dst.id
  | none => false

/-- The sites recorded for a node. -/
def callSites (g : Graph) (n : Node) : List CallSite :=
  match g.slotOf? n with
  | some s => s.sites
  | none => []

/-- The callees attributed to a site of a node. -/
def targets (g : Graph) (n : Node) (site : CallSite) : List Node :=
  match (g.slotOf? n).bind fun s => s.targets.find? site with
  | some t => g.nodesWith t.toList
  | none => []

/-- The sites of one node that may invoke another, in order of recording. -/
def sitesBetween (g : Graph) (src dst : Node) : List CallSite :=
  match g.slotOf? src with
  | some s =>
    if g.hasEdge src dst then
      s.sites.filter fun site => ((s.targets.find? site).getD .empty).contains dst.id
    else []
  | none => []

instance : CallGraph Graph where
  fakeRoot g := g.node? rootId
  fakeWorldClinit g := g.node? clinitId
  entrypoints g := g.nodesWith g.entrypoints
  node? := node?
  lookup := lookup
  nodesOf g u := g.nodesWith ((g.byUnit.find? u).getD [])
  nodes := nodes
  nodeCount g := g.live
  maxId g := (g.slots.size : Int) - 1
  contains := contains
  succs := succs
  preds := preds
  succCount := succCount
  predCount := predCount
  hasEdge := hasEdge
  callSites := callSites
  targets := targets
  sitesBetween := sitesBetween

end Graph

namespace CallGraph

variable {G : Type} [CallGraph G]

/-- The edges, by caller and then by callee. -/
def edges (g : G) : List (Node × Node) :=
  (nodes g).flatMap fun src => (succs g src).map fun dst => (src, dst)

/-- How many edges there are to see. -/
def countEdges (g : G) : Nat := ((nodes g).map (succCount g)).foldr (· + ·) 0

/-- Walks over a list of edges with a running value until a visit asks to
    stop, and says whether one did. -/
def visitList {σ : Type} (visit : σ → Node → Node → σ × Bool) :
    List (Node × Node) → σ → σ × Bool
  | [], s => (s, false)
  | (src, dst) :: rest, s =>
    match visit s src dst with
    | (s, true) => (s, true)
    | (s, false) => visitList visit rest s

/-- Walks over the edges with a running value until a visit asks to stop, and
    says whether one did. -/
def visitEdges {σ : Type} (g : G) (visit : σ → Node → Node → σ × Bool) (s : σ) : σ × Bool :=
  visitList visit (edges g) s

/-- Whether some edge satisfies a test, and how many edges were tested. -/
def findEdge (g : G) (test : Node → Node → Bool) : Nat × Bool :=
  visitEdges g (fun tested src dst => (tested + 1, test src dst)) 0

end CallGraph

end CallAtlas
