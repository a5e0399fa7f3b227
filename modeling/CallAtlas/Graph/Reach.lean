import CallAtlas.Graph.Query

/-!
# Reachability

The nodes to which a path of calls leads from given roots. The walk keeps the
set of numbers met so far and a stack of nodes whose callees are still to be
looked at; a node is put on the stack once, when its number is met for the
first time, so no more nodes are taken off than the graph has, and that number
bounds the walk.

## Main definitions

* `CallGraph.reachable`: The numbers of the nodes reachable from given roots.
-/

namespace CallAtlas

namespace CallGraph

variable {G : Type} [CallGraph G]

/-- A walk in progress: the numbers met and the nodes still to be looked at. -/
structure Frontier where
  seen : IdSet := .empty
  stack : List Node := []
deriving Inhabited

/-- Meets a node; only a first meeting puts it on the stack. -/
def Frontier.meet (f : Frontier) (n : Node) : Frontier :=
  if n.id ∈ f.seen then f else { seen := f.seen.insert n.id, stack := n :: f.stack }

/-- Looks at up to `steps` nodes of the stack, the last one met first. -/
def explore (g : G) : (steps : Nat) → Frontier → IdSet
  | 0, f => f.seen
  | steps + 1, f =>
    match f.stack with
    | [] => f.seen
    | n :: rest => explore g steps ((succs g n).foldl Frontier.meet { f with stack := rest })

/-- The numbers of the nodes reachable from the given roots, the roots
    included. Roots that are missing or not in the graph are passed over. -/
def reachable (g : G) (roots : List (Option Node)) : IdSet :=
  let present := (roots.filterMap id).filter (contains g)
  explore g (nodes g).length (present.foldl Frontier.meet {})

end CallGraph

end CallAtlas
