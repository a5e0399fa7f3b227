import CallAtlas.Graph.Query
import CallAtlas.Text.Quoted

/-!
# Documents

A document is the form in which a call graph is stored: a record for each node
with the sites recorded for it, a record for each edge that names the sites it is
attributed to by their position, and the entrypoints. Units are stored by their
reference and contexts by their name.

Rebuilding takes the records in order. Numbers in a document only tie its records
together; the graph hands out numbers of its own. A node that is recorded twice is
one node, whose site positions run on from one record to the next, and any kind
but those of the synthetic roots is ordinary. What ties records together has to
hold: an edge or entrypoint that names no record, or a site position that is not
there, is an error, and so is a dispatch kind without a name.

## Main definitions

* `SiteRecord`, `NodeRecord`, `EdgeRecord`, `Document`: The stored form.
* `Document.encode`: The document of everything to be seen in a graph.
* `Document.decode`: The graph that a document describes.
-/

namespace CallAtlas

/-- A stored call site. -/
structure SiteRecord where
  pc : Int := 0
  kind : String := ""
  owner : String := ""
  name : String := ""
  signature : String := ""
deriving DecidableEq, Inhabited

/-- A stored node with its call sites. -/
structure NodeRecord where
  id : Int := 0
  kind : String := ""
  owner : String := ""
  name : String := ""
  signature : String := ""
  context : String := ""
  sites : List SiteRecord := []
deriving DecidableEq, Inhabited

/-- A stored edge with the positions of its sites among those of the caller. -/
structure EdgeRecord where
  src : Int := 0
  dst : Int := 0
  sites : List Int := []
deriving DecidableEq, Inhabited

/-- The stored form of a call graph. -/
structure Document where
  schema : String := ""
  nodes : List NodeRecord := []
  edges : List EdgeRecord := []
  entrypoints : List Int := []
deriving DecidableEq, Inhabited

/-- Why a document describes no graph. -/
inductive DocumentError where
  | unsupportedSchema (schema : String)
  | unknownDispatch (node : Int) (kind : String)
  | danglingEdge (src dst : Int)
  | siteOutOfRange (src dst site : Int)
  | danglingEntrypoint (id : Int)
deriving DecidableEq

namespace DocumentError

/-- What a caller is told. -/
def message : DocumentError → String
  | unsupportedSchema s => "unsupported snapshot schema " ++ Text.quoted s
  | unknownDispatch n k =>
    "node " ++ toString n ++ ": unknown dispatch kind " ++ Text.quoted k
  | danglingEdge s d =>
    "edge " ++ toString s ++ " -> " ++ toString d ++ ": callgraph: node not in graph"
  | siteOutOfRange s d i =>
    "edge " ++ toString s ++ " -> " ++ toString d ++ ": site " ++ toString i ++ " out of range"
  | danglingEntrypoint n => "entrypoint " ++ toString n ++ ": callgraph: node not in graph"

/-- Whether the fault is a record that is not there. -/
def isDangling : DocumentError → Bool
  | danglingEdge _ _ | danglingEntrypoint _ => true
  | _ => false

end DocumentError

namespace Document

/-- The version of the stored form. -/
def currentSchema : String := "1"

/-- The stored form of a call site. -/
def siteRecord (s : CallSite) : SiteRecord :=
  { pc := s.pc, kind := s.kind.text, owner := s.target.owner, name := s.target.name
    signature := s.target.signature }

variable {G : Type} [CallGraph G]

/-- The stored form of a node. -/
def nodeRecord (g : G) (n : Node) : NodeRecord :=
  { id := n.id, kind := n.kind.text, owner := n.unit.ref.owner, name := n.unit.ref.name
    signature := n.unit.ref.signature, context := n.context.text
    sites := (CallGraph.callSites g n).map siteRecord }

/-- The stored form of an edge. -/
def edgeRecord (g : G) (e : Node × Node) : EdgeRecord :=
  let recorded := CallGraph.callSites g e.1
  { src := e.1.id, dst := e.2.id
    sites := (CallGraph.sitesBetween g e.1 e.2).map fun s => ((recorded.idxOf? s).getD 0 : Nat) }

/-- The document of everything to be seen in a graph. -/
def encode (g : G) : Document :=
  { schema := currentSchema
    nodes := (CallGraph.nodes g).map (nodeRecord g)
    edges := (CallGraph.edges g).map (edgeRecord g)
    entrypoints := (CallGraph.entrypoints g).map (·.id) }

/-- A graph in the making, with the number of the node and the sites that each
    recorded number stands for. -/
structure Draft where
  graph : Graph
  numbers : Table Int Int := .empty
  sites : Table Int (List CallSite) := .empty
deriving Inhabited

namespace Draft

/-- The call site that a record describes. -/
def siteOf (r : SiteRecord) : Option CallSite :=
  (Dispatch.ofName? r.kind).map fun kind => ⟨r.pc, ⟨r.owner, r.name, r.signature⟩, kind⟩

/-- Adds a recorded site to the node numbered `id`, recorded as `number`. -/
def addSite (number id : Int) (d : Draft) (r : SiteRecord) : Except DocumentError Draft :=
  match siteOf r with
  | none => .error (.unknownDispatch number r.kind)
  | some s => .ok { d with
      graph := d.graph.recordSite id s
      sites := d.sites.insert number (((d.sites.find? number).getD []) ++ [s]) }

/-- The node that a record stands for, made if it is not there yet. -/
def nodeFor (g : Graph) (r : NodeRecord) : Graph × Int :=
  if r.kind = NodeKind.fakeRoot.text then (g, Graph.rootId)
  else if r.kind = NodeKind.fakeWorldClinit.text then (g, Graph.clinitId)
  else
    let unit : CodeUnit := .named ⟨r.owner, r.name, r.signature⟩
    let context := Context.ofName r.context
    match g.lookup unit context with
    | some n => (g, n.id)
    | none =>
      let (g, n) := g.create unit context .ordinary
      (g, n.id)

/-- Adds a recorded node with its sites. -/
def addNode (d : Draft) (r : NodeRecord) : Except DocumentError Draft :=
  let (graph, id) := nodeFor d.graph r
  let d := { d with graph, numbers := d.numbers.insert r.id id }
  r.sites.foldlM (addSite r.id id) d

/-- Attributes an edge to the site at a position. -/
def addCall (r : EdgeRecord) (src dst : Int) (d : Draft) (i : Int) :
    Except DocumentError Draft :=
  let known := (d.sites.find? r.src).getD []
  match if i < 0 then none else known[i.toNat]? with
  | none => .error (.siteOutOfRange r.src r.dst i)
  | some s => .ok { d with graph := (d.graph.addTarget src s dst).link src dst }

/-- Adds a recorded edge. -/
def addEdge (d : Draft) (r : EdgeRecord) : Except DocumentError Draft :=
  match d.numbers.find? r.src, d.numbers.find? r.dst with
  | some src, some dst =>
    if r.sites.isEmpty then .ok { d with graph := d.graph.link src dst }
    else r.sites.foldlM (addCall r src dst) d
  | _, _ => .error (.danglingEdge r.src r.dst)

/-- Registers a recorded entrypoint. -/
def addEntrypoint (d : Draft) (number : Int) : Except DocumentError Draft :=
  match d.numbers.find? number with
  | some id => .ok { d with graph := d.graph.markEntrypoint id }
  | none => .error (.danglingEntrypoint number)

end Draft

/-- The graph that a document describes. -/
def decode (serial : Nat) (doc : Document) : Except DocumentError Graph := do
  if doc.schema ≠ currentSchema then throw (.unsupportedSchema doc.schema)
  let d : Draft := { graph := Graph.fresh serial }
  let d ← doc.nodes.foldlM Draft.addNode d
  let d ← doc.edges.foldlM Draft.addEdge d
  let d ← doc.entrypoints.foldlM Draft.addEntrypoint d
  return d.graph

end Document

end CallAtlas
