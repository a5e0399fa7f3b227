import CallAtlas.Graph.Basic

/-!
# Checked Edits

The edits that callers make. Each one first asks whether the graph is frozen
and whether its arguments are nodes of this graph, in that order, and gives
back either a changed graph or the reason for refusing; a refused edit has no
graph to give back, so it cannot leave a half-made change behind.

An argument may be missing: callers look nodes up and pass on what they find.
Registering an entrypoint is not a structural edit and is the one edit that a
frozen graph still takes, beside asking for a node that is there already.

## Main definitions

* `GraphError`: Why an edit was refused.
* `Graph.findOrCreate`, `Graph.registerEntrypoint`, `Graph.addEdge`,
  `Graph.addSite`, `Graph.addCall`, `Graph.removeNode`, `Graph.removeEdge`,
  `Graph.freeze`: The edits.
-/

namespace CallAtlas

/-- Why an edit was refused. -/
inductive GraphError where
  /-- The graph takes no structural edits any more. -/
  | frozen
  /-- A synthetic root cannot be removed. -/
  | notRemovable (kind : NodeKind)
  /-- The argument is not a node of this graph. -/
  | nodeNotFound (node : Option Node)
  /-- A node was asked for without a unit or without a context. -/
  | noUnit
deriving DecidableEq

namespace GraphError

/-- What a caller is told. -/
def message : GraphError → String
  | frozen => "callgraph: invalid graph state: graph is frozen"
  | notRemovable k => "callgraph: invalid graph state: cannot remove " ++ k.text
  | nodeNotFound n => "callgraph: node not in graph: " ++ Node.textOf n
  | noUnit => "callgraph: nil code unit or context"

end GraphError

namespace Graph

/-- The slot of an argument, or the refusal of an argument that is no node of
    this graph. -/
def require (g : Graph) (n : Option Node) : Except GraphError Slot :=
  match n.bind g.slotOf? with
  | some s => .ok s
  | none => .error (.nodeNotFound n)

/-- Refuses structural edits of a frozen graph. -/
def requireThawed (g : Graph) : Except GraphError Unit :=
  if g.frozen then .error .frozen else .ok ()

/-- Refuses all further structural edits. -/
def freeze (g : Graph) : Graph := { g with frozen := true }

/-- The node of a unit in a context. -/
def lookup (g : Graph) (unit : CodeUnit) (context : Context) : Option Node :=
  ((g.index.find? (unit, context)).bind g.slot?).map (·.node)

/-- The node of a unit in a context, made if it is not there yet. -/
def findOrCreate (g : Graph) (unit : Option CodeUnit) (context : Option Context) :
    Except GraphError (Graph × Node) :=
  match unit, context with
  | some u, some c =>
    match g.lookup u c with
    | some n => .ok (g, n)
    | none => if g.frozen then .error .frozen else .ok (g.create u c .ordinary)
  | _, _ => .error .noUnit

/-- Marks a node as an entrypoint. -/
def registerEntrypoint (g : Graph) (n : Option Node) : Except GraphError Graph := do
  let s ← g.require n
  return g.markEntrypoint s.node.id

/-- Adds an edge that is attributed to no call site. -/
def addEdge (g : Graph) (src dst : Option Node) : Except GraphError Graph := do
  g.requireThawed
  let s ← g.require src
  let d ← g.require dst
  return g.link s.node.id d.node.id

/-- Records a call site of a node, whether it ever resolves or not. -/
def addSite (g : Graph) (n : Option Node) (site : CallSite) : Except GraphError Graph := do
  g.requireThawed
  let s ← g.require n
  return g.recordSite s.node.id site

/-- Records that a site of a node may invoke another, and adds the edge. -/
def addCall (g : Graph) (src : Option Node) (site : CallSite) (dst : Option Node) :
    Except GraphError Graph := do
  g.requireThawed
  let s ← g.require src
  let d ← g.require dst
  return (g.addTarget s.node.id site d.node.id).link s.node.id d.node.id

/-- Removes an ordinary node with every edge at it. Its number is not used
    again. -/
def removeNode (g : Graph) (n : Option Node) : Except GraphError Graph := do
  g.requireThawed
  let s ← g.require n
  if s.node.kind = .ordinary then return g.discard s
  else throw (.notRemovable s.node.kind)

/-- Removes an edge with every attribution of it to a site. Removing an edge
    that is not there has no effect. -/
def removeEdge (g : Graph) (src dst : Option Node) : Except GraphError Graph := do
  g.requireThawed
  let s ← g.require src
  let d ← g.require dst
  return g.unlink s.node.id d.node.id

end Graph

end CallAtlas
