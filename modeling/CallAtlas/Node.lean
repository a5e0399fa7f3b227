import CallAtlas.Reference

/-!
# Nodes

A node is one code unit in one context, numbered by the graph that made it.
Numbers repeat between graphs, so a node also bears the serial of its graph: a
node of one graph is never mistaken for the node of another that has the same
number, and a node that was removed is never mistaken for its successor, since
a graph hands out every number once.

## Main definitions

* `NodeKind`: Ordinary nodes and the two synthetic roots.
* `Node`: A code unit in a context, numbered by its graph.
-/

namespace CallAtlas

/-- Ordinary nodes and the two synthetic roots. -/
inductive NodeKind where
  | ordinary
  /-- The root whose call sites are the entrypoints of the program. -/
  | fakeRoot
  /-- The root whose call sites reach the modelled static initializers. -/
  | fakeWorldClinit
deriving DecidableEq, Inhabited

namespace NodeKind

/-- The printed form of a node kind. -/
def text : NodeKind → String
  | ordinary => "ordinary"
  | fakeRoot => "fake_root"
  | fakeWorldClinit => "fake_world_clinit"

/-- The kind with a given code; codes without a kind of their own are
    ordinary. -/
def ofCode : Nat → NodeKind
  | 1 => fakeRoot
  | 2 => fakeWorldClinit
  | _ => ordinary

end NodeKind

/-- A code unit in a context, numbered by its graph. -/
structure Node where
  /-- The serial of the graph that made the node. -/
  serial : Nat
  /-- The number of the node in its graph. -/
  id : Int
  unit : CodeUnit
  context : Context
  kind : NodeKind
deriving DecidableEq, Inhabited

namespace Node

/-- The printed form of a node. -/
def text (n : Node) : String :=
  "n" ++ toString n.id ++ ":" ++ n.unit.text ++ "<" ++ n.context.text ++ ">"

/-- The printed form of a node that may be missing. -/
def textOf : Option Node → String
  | none => "<nil>"
  | some n => n.text

end Node

namespace CodeUnit

/-- The unit of the node that calls every entrypoint. -/
def fakeRoot : CodeUnit := named ⟨"$synthetic", "fakeRoot", "()"⟩

/-- The unit of the node that calls every static initializer. -/
def fakeWorldClinit : CodeUnit := named ⟨"$synthetic", "fakeWorldClinit", "()"⟩

end CodeUnit

end CallAtlas
