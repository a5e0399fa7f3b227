import CallAtlas.Graph.Reach
import CallAtlas.Lifetime

/-!
# Finding the Nodes to Keep

Pruning keeps the nodes that a policy accepts, the calls that lead to them, and
as many calls beyond them as a depth says. One depth-first traversal from the
fake root finds them. It carries the path from the root to the node it is at;
whenever it meets a node that is accepted or already kept, the whole path is
kept.

The traversal decides at once, so a node that reaches an accepted node only
through a call back to a node still on the path is kept only if another of its
callees was kept before. The result depends on the order of the callees, and
that order is by number.

The path never repeats a node, so it is never longer than the graph has nodes,
and that number bounds the depth of the recursion.

## Main definitions

* `KeepPolicy`: Which nodes are worth keeping.
* `Prune.Search`: The state of the traversal.
* `Prune.spread`: Keeps what lies within some number of calls.
* `Prune.visit`: The traversal from one node on.
* `Prune.findNodes`: The numbers of the nodes to keep.
-/

namespace CallAtlas

/-- Which nodes are worth keeping. -/
abbrev KeepPolicy := Node → Bool

namespace KeepPolicy

/-- Every node is. -/
def all : KeepPolicy := fun _ => true

/-- The ordinary nodes are whose unit the application declares. -/
def application (loader : CodeUnit → Loader) : KeepPolicy := fun n =>
  n.kind = .ordinary && loader n.unit = .application

end KeepPolicy

/-- Why pruning gave no result. -/
inductive PruneError where
  | negativeDepth (depth : Int)
  | cancelled (cause : EndCause)
deriving DecidableEq

namespace PruneError

/-- What a caller is told. -/
def message : PruneError → String
  | negativeDepth d => "prune: negative depth: " ++ toString d
  | cancelled c => c.analysisMessage

end PruneError

namespace Prune

variable {G : Type} [CallGraph G]

/-- The state of the traversal. -/
structure Search where
  /-- The numbers of the nodes visited. -/
  marked : IdSet := .empty
  /-- The numbers of the nodes kept. -/
  keep : IdSet := .empty
  /-- The nodes the policy was asked about, in order. -/
  asked : List Node := []
  life : Lifetime := .unbounded
deriving Inhabited

/-- Keeps every node of a path. -/
def Search.keepPath (s : Search) (path : List Node) : Search :=
  { s with keep := s.keep.insertAll (path.map (·.id)) }

/-- A walk outward in rounds: the numbers kept, the numbers met in this walk,
    and the nodes met in the round at hand. -/
structure Ball where
  keep : IdSet
  seen : IdSet
  round : List Node := []

/-- Keeps a callee, and takes it into the round if the walk meets it for the
    first time. -/
def Ball.meet (b : Ball) (n : Node) : Ball :=
  let b := { b with keep := b.keep.insert n.id }
  if n.id ∈ b.seen then b
  else { b with seen := b.seen.insert n.id, round := b.round ++ [n] }

/-- Keeps everything within `depth` calls of the nodes of a round. The walk goes
    on through nodes that were kept before. -/
def spread (g : G) : (depth : Nat) → Ball → IdSet
  | 0, b => b.keep
  | depth + 1, b =>
    match b.round with
    | [] => b.keep
    | round =>
      spread g depth ((round.flatMap (CallGraph.succs g)).foldl Ball.meet { b with round := [] })

/-- Keeps everything within `depth` calls of a node. -/
def Search.extend (g : G) (depth : Nat) (s : Search) (n : Node) : Search :=
  let ball : Ball := { keep := s.keep, seen := IdSet.empty.insert n.id, round := [n] }
  { s with keep := spread g depth ball }

/-- Visits a node to which `path` leads, with `room` more nodes to go. -/
def visit (g : G) (accept : KeepPolicy) (depth : Nat) :
    (room : Nat) → (path : List Node) → Node → Search → Except EndCause Search
  | 0, _, _, s => .ok s
  | room + 1, path, n, s =>
    match s.life.poll with
    | (some cause, _) => .error cause
    | (none, life) => do
      let path := path ++ [n]
      let s := { s with marked := s.marked.insert n.id, life }
      let s ← (CallGraph.succs g n).foldlM (fun s t =>
        if t.id ∉ s.marked then visit g accept depth room path t s
        else if t.id ∈ s.keep then pure (s.keepPath path)
        else pure s) s
      let s := { s with asked := s.asked ++ [n] }
      if accept n then pure ((s.keepPath path).extend g depth n) else pure s

/-- The numbers of the nodes to keep: every node that the policy accepts, every
    node on the traversal's path to one, and every node within `depth` calls of
    one. -/
def findNodes (g : G) (accept : KeepPolicy) (depth : Int) (life : Lifetime) :
    Except PruneError IdSet :=
  if depth < 0 then .error (.negativeDepth depth)
  else
    match CallGraph.fakeRoot g with
    | none => .ok .empty
    | some root =>
      match visit g accept depth.toNat (CallGraph.nodes g).length [] root { life } with
      | .ok s => .ok s.keep
      | .error cause => .error (.cancelled cause)

end Prune

end CallAtlas
