import CallAtlas.Json.Basic
import CallAtlas.Graph.Query

/-!
# Listings of Graphs

A graph or a view written out as JSON, node by node, for tools that look at one.

## Main definitions

* `CallGraph.listing`: All nodes with their edges and sites.
* `Graph.listing`: The same with what only a stored graph knows.
-/

namespace CallAtlas

namespace CallGraph

variable {G : Type} [CallGraph G]

/-- Nodes by number. -/
def numbers (nodes : List Node) : Json := .arr (nodes.map fun n => .ofInt n.id)

/-- A node with its edges and sites. -/
def nodeListing (g : G) (n : Node) : Json :=
  .obj [("node", .str n.text), ("kind", .str n.kind.text),
    ("succs", numbers (CallGraph.succs g n)), ("preds", numbers (CallGraph.preds g n)),
    ("sites", .arr ((CallGraph.callSites g n).map fun s =>
      .arr [.str s.text, numbers (CallGraph.targets g n s)]))]

/-- The members of a listing. -/
def listing (g : G) : List (String × Json) :=
  [("nodes", .arr ((CallGraph.nodes g).map (nodeListing g))),
   ("entrypoints", numbers (CallGraph.entrypoints g)),
   ("node_count", .ofInt (CallGraph.nodeCount g)),
   ("edge_count", .ofNat (CallGraph.countEdges g)),
   ("max_id", .ofInt (CallGraph.maxId g))]

end CallGraph

/-- A listing with what only a stored graph knows. -/
def Graph.listing (g : Graph) : Json :=
  .obj (CallGraph.listing g ++ [("edge_counter", .ofInt g.edges), ("frozen", .bool g.frozen)])

end CallAtlas
