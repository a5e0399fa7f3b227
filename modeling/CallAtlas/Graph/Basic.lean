import CallAtlas.IdSet
import CallAtlas.Node
import CallAtlas.Table

/-!
# The Stored Call Graph

A graph numbers its nodes in order of creation and never hands a number out
twice: the slot of a removed node stays empty. Each slot holds a node with its
callers, its callees, the call sites recorded for it in order of recording, and
the callees attributed to each of them.

Indexes stand beside the slots, so that a node is found by its unit and context,
the nodes of a unit are listed, an entrypoint is known as one, and both counts
are read off without a walk. They say nothing that the slots and the list of
entrypoints do not say; every edit below repairs all of them.

The edits in this module are the bare ones. They do not ask whether their
arguments belong to the graph or whether the graph is frozen; the edits that
callers use ask both and then make one of these.

## Main definitions

* `Slot`: A node with its edges and recorded sites.
* `Graph`: The slots and their indexes.
* `Graph.fresh`: The graph of the two synthetic roots.
* `Graph.create`, `Graph.link`, `Graph.unlink`, `Graph.recordSite`,
  `Graph.addTarget`, `Graph.discard`: The bare edits.
-/

namespace CallAtlas

/-- A node with its edges and recorded sites. -/
structure Slot where
  node : Node
  /-- The numbers of the callees. -/
  succs : IdSet := .empty
  /-- The numbers of the callers. -/
  preds : IdSet := .empty
  /-- The recorded sites in order of recording. -/
  sites : List CallSite := []
  /-- The numbers of the callees attributed to each recorded site. -/
  targets : Table CallSite IdSet := .empty
deriving DecidableEq, Inhabited

namespace Slot

/-- Records a site; a recorded site keeps its place and targets. -/
def record (s : Slot) (site : CallSite) : Slot :=
  if s.targets.contains site then s
  else { s with sites := s.sites ++ [site], targets := s.targets.insert site .empty }

/-- Attributes a callee to a site. -/
def addTarget (s : Slot) (site : CallSite) (dst : Int) : Slot :=
  { s with targets := s.targets.insert site (((s.targets.find? site).getD .empty).insert dst) }

end Slot

/-- A call graph that stores its nodes, edges and per-site targets. -/
structure Graph where
  /-- Tells the graph's nodes from those of every other graph. -/
  serial : Nat
  /-- The slots by number; a removed node leaves an empty one. -/
  slots : Array (Option Slot) := #[]
  /-- The number of the node of a unit in a context. -/
  index : Table (CodeUnit × Context) Int := .empty
  /-- The numbers of the nodes of a unit, in order of creation. -/
  byUnit : Table CodeUnit (List Int) := .empty
  /-- The number of nodes. -/
  live : Int := 0
  /-- The number of edges. -/
  edges : Int := 0
  /-- The numbers of the entrypoints in order of registration. -/
  entrypoints : List Int := []
  /-- The same numbers as a set, which tells whether one is registered. -/
  entrySet : IdSet := .empty
  /-- Whether the graph refuses structural edits. -/
  frozen : Bool := false
deriving DecidableEq, Inhabited

namespace Graph

/-- The slot with a given number. -/
def slot? (g : Graph) (id : Int) : Option Slot :=
  if id < 0 then none else (g.slots[id.toNat]?).join

/-- The slot of a node, provided that the node is one of this graph. -/
def slotOf? (g : Graph) (n : Node) : Option Slot :=
  (g.slot? n.id).filter fun s => s.node = n

/-- Changes the slot with a given number, if there is one. -/
def modifySlot (g : Graph) (id : Int) (f : Slot → Slot) : Graph :=
  if id < 0 then g else { g with slots := g.slots.modify id.toNat (·.map f) }

/-- Makes a node with the next number. -/
def create (g : Graph) (unit : CodeUnit) (context : Context) (kind : NodeKind) : Graph × Node :=
  let id : Int := g.slots.size
  let node : Node := { serial := g.serial, id, unit, context, kind }
  ({ g with
      slots := g.slots.push (some { node })
      index := g.index.insert (unit, context) id
      byUnit := g.byUnit.insert unit (((g.byUnit.find? unit).getD []) ++ [id])
      live := g.live + 1 }, node)

/-- The number of the fake root in every graph. -/
def rootId : Int := 0

/-- The number of the fake world-clinit node in every graph. -/
def clinitId : Int := 1

/-- The graph that holds only the fake root, numbered 0, and the fake
    world-clinit node, numbered 1. -/
def fresh (serial : Nat) : Graph :=
  let g : Graph := { serial }
  let g := (g.create .fakeRoot .everywhere .fakeRoot).1
  (g.create .fakeWorldClinit .everywhere .fakeWorldClinit).1

/-- Adds an edge. -/
def link (g : Graph) (src dst : Int) : Graph :=
  match g.slot? src with
  | none => g
  | some s =>
    if dst ∈ s.succs then g
    else
      let g := g.modifySlot src fun s => { s with succs := s.succs.insert dst }
      let g := g.modifySlot dst fun d => { d with preds := d.preds.insert src }
      { g with edges := g.edges + 1 }

/-- Removes an edge and every attribution of it to a site. -/
def unlink (g : Graph) (src dst : Int) : Graph :=
  match g.slot? src with
  | none => g
  | some s =>
    if dst ∈ s.succs then
      let g := g.modifySlot src fun s =>
        { s with succs := s.succs.erase dst, targets := s.targets.mapValues (·.erase dst) }
      let g := g.modifySlot dst fun d => { d with preds := d.preds.erase src }
      { g with edges := g.edges - 1 }
    else g

/-- Records a site of a node; a recorded site keeps its place and targets. -/
def recordSite (g : Graph) (id : Int) (site : CallSite) : Graph :=
  g.modifySlot id (·.record site)

/-- Records a site of a node and attributes a callee to it. -/
def addTarget (g : Graph) (src : Int) (site : CallSite) (dst : Int) : Graph :=
  g.modifySlot src fun s => (s.record site).addTarget site dst

/-- Registers an entrypoint; an entrypoint registered before keeps its place. -/
def markEntrypoint (g : Graph) (id : Int) : Graph :=
  if id ∈ g.entrySet then g
  else { g with entrypoints := g.entrypoints ++ [id], entrySet := g.entrySet.insert id }

/-- The list of a unit's numbers without one of them. -/
def dropFromUnit (t : Table CodeUnit (List Int)) (unit : CodeUnit) (id : Int) :
    Table CodeUnit (List Int) :=
  match ((t.find? unit).getD []).erase id with
  | [] => t.erase unit
  | ids => t.insert unit ids

/-- Removes a node with every edge at it. A loop is one edge. -/
def discard (g : Graph) (s : Slot) : Graph :=
  let id := s.node.id
  let callees := s.succs.toList.filter (· ≠ id)
  let callers := s.preds.toList.filter (· ≠ id)
  let g := callees.foldl (fun g d => g.modifySlot d fun t => { t with preds := t.preds.erase id }) g
  let g := callers.foldl
    (fun g p => g.modifySlot p fun t =>
      { t with succs := t.succs.erase id, targets := t.targets.mapValues (·.erase id) }) g
  { g with
      slots := g.slots.setIfInBounds id.toNat none
      index := g.index.erase (s.node.unit, s.node.context)
      byUnit := dropFromUnit g.byUnit s.node.unit id
      live := g.live - 1
      edges := g.edges - s.succs.size - callers.length
      entrypoints := if id ∈ g.entrySet then g.entrypoints.erase id else g.entrypoints
      entrySet := g.entrySet.erase id }

end Graph

end CallAtlas
