import CallAtlas.Closure.Hierarchy
import CallAtlas.Graph.Query
import CallAtlas.Lifetime

/-!
# The Closure

The call graph of a program by class hierarchy analysis: every dispatching call
site may reach every relevant override of the target it declares. The closure
starts at the fake root, whose sites are the entrypoints, and keeps a stack of
the nodes whose code it has not yet read. Reading a node records its sites and
links each to its relevant candidates; a candidate met for the first time gets a
node, and so does the initializer of its class, which hangs off the fake
world-clinit node.

Every answer of the hierarchy is kept and shared: candidates by target and
dispatch kind, function objects by node and site. The closure looks whether its
caller still waits once before each node it takes off the stack, and nowhere
else; a caller that has gone finds the graph as far as it was built.

## Main definitions

* `Closure`: The state of the closure.
* `Closure.link`: Links a site to a candidate.
* `Closure.visitSite`: Records a site and links it.
* `Closure.step`: Reads the code of one node.
* `Closure.build`: The closure of a list of entrypoints.
-/

namespace CallAtlas

/-- The state of the closure. -/
structure Closure (σ : Type) where
  /-- The state of the hierarchy. -/
  world : σ
  graph : Graph
  /-- The nodes whose code is still to be read, the next one first. -/
  worklist : List Node := []
  /-- The candidates found so far, by declared target and dispatch kind. -/
  candidates : Table (MethodRef × Dispatch) (List CodeUnit) := .empty
  /-- The function objects found so far, by number of the node and site. -/
  wrappers : Table (Int × CallSite) (Option CodeUnit) := .empty
  /-- The number of nodes made. -/
  created : Nat := 0
  /-- The number of initializers linked to the fake world-clinit node. -/
  initializers : Nat := 0
  /-- The number of nodes taken off the worklist. -/
  pops : Nat := 0
  /-- Every question to the hierarchy, in order. -/
  asked : List Question := []

namespace Closure

variable {σ : Type}

/-- Puts a question to the hierarchy. -/
def ask {α : Type} (c : Closure σ) (q : Question) (answer : StateM σ α) : α × Closure σ :=
  let (a, world) := answer.run c.world
  (a, { c with world, asked := c.asked ++ [q] })

/-- Makes a node for a unit and puts it on the worklist. -/
def newNode (c : Closure σ) (u : CodeUnit) : Node × Closure σ :=
  let (graph, n) := c.graph.create u .everywhere .ordinary
  (n, { c with graph, worklist := n :: c.worklist, created := c.created + 1 })

/-- Makes a node for the initializer of a class, unless it has one, and links it
    from the fake world-clinit node. -/
def linkInitializer (c : Closure σ) (u : CodeUnit) : Closure σ :=
  if (c.graph.lookup u .everywhere).isSome then c
  else
    let (n, c) := c.newNode u
    let site : CallSite := { pc := c.initializers, target := u.ref, kind := .static }
    let graph := (c.graph.addTarget Graph.clinitId site n.id).link Graph.clinitId n.id
    { c with graph, initializers := c.initializers + 1 }

/-- The node of a unit, made if it is not there yet, together with the
    initializer of its class. -/
def nodeFor (h : Hierarchy σ) (c : Closure σ) (u : CodeUnit) : Node × Closure σ :=
  match c.graph.lookup u .everywhere with
  | some n => (n, c)
  | none =>
    let (n, c) := c.newNode u
    match c.ask (.initializer u) (h.initializer u) with
    | (none, c) => (n, c)
    | (some i, c) => (n, c.linkInitializer i)

/-- Links a site to a candidate. What the fake root calls is an entrypoint. -/
def link (h : Hierarchy σ) (n : Node) (site : CallSite) (c : Closure σ) (u : CodeUnit) :
    Closure σ :=
  let (callee, c) := c.nodeFor h u
  let graph := if n.id = Graph.rootId then c.graph.markEntrypoint callee.id else c.graph
  { c with graph := (graph.addTarget n.id site callee.id).link n.id callee.id }

/-- Whether a candidate may become a node. -/
def relevant (h : Hierarchy σ) (applicationOnly : Bool) (u : CodeUnit) : Bool :=
  !h.isAbstract u && (!applicationOnly || h.loader u = .application)

/-- The candidates of a site that calls. -/
def resolve (h : Hierarchy σ) (c : Closure σ) (site : CallSite) : List CodeUnit × Closure σ :=
  match c.candidates.find? (site.target, site.kind) with
  | some us => (us, c)
  | none =>
    let (us, c) :=
      if site.kind.isOverriding then c.ask (.overrides site.target) (h.overrides site.target)
      else
        let (u, c) := c.ask (.single site.target) (h.single site.target)
        (u.toList, c)
    (us, { c with candidates := c.candidates.insert (site.target, site.kind) us })

/-- The candidate of a site that makes a function object. -/
def resolveWrapper (h : Hierarchy σ) (c : Closure σ) (n : Node) (site : CallSite) :
    List CodeUnit × Closure σ :=
  match c.wrappers.find? (n.id, site) with
  | some u => (u.toList, c)
  | none =>
    let (u, c) := c.ask (.wrapper n site) (h.wrapper n site)
    (u.toList, { c with wrappers := c.wrappers.insert (n.id, site) u })

/-- Records a site and links it to its relevant candidates. -/
def visitSite (h : Hierarchy σ) (applicationOnly : Bool) (n : Node) (c : Closure σ)
    (site : CallSite) : Closure σ :=
  let c := { c with graph := c.graph.recordSite n.id site }
  let (us, c) := if site.kind = .dynamic then c.resolveWrapper h n site else c.resolve h site
  (us.filter (relevant h applicationOnly)).foldl (link h n site) c

/-- The sites of a node: the root has the entrypoints, the other synthetic node
    none that are to be read. -/
def sitesOf (h : Hierarchy σ) (c : Closure σ) (n : Node) : List CallSite × Closure σ :=
  match n.kind with
  | .fakeRoot => (c.graph.callSites n, c)
  | .fakeWorldClinit => ([], c)
  | .ordinary => c.ask (.callSites n) (h.callSites n)

/-- Reads the code of the node that was taken off the worklist. -/
def step (h : Hierarchy σ) (applicationOnly : Bool) (c : Closure σ) (n : Node) : Closure σ :=
  let c := { c with pops := c.pops + 1 }
  let (sites, c) := c.sitesOf h n
  sites.foldl (visitSite h applicationOnly n) c

/-- Reads up to `steps` nodes, looking before each whether the caller waits. -/
def run (h : Hierarchy σ) (applicationOnly : Bool) :
    (steps : Nat) → Lifetime → Closure σ → Closure σ × Option EndCause
  | 0, _, c => (c, none)
  | steps + 1, life, c =>
    match c.worklist with
    | [] => (c, none)
    | n :: rest =>
      match life.poll with
      | (some cause, _) => (c, some cause)
      | (none, life) => run h applicationOnly steps life (step h applicationOnly { c with worklist := rest } n)

/-- The closure before any node is read: entrypoint `i` is a call site of the
    fake root with program counter `i`. -/
def start (world : σ) (serial : Nat) (entrypoints : List CodeUnit) : Closure σ :=
  let graph := entrypoints.zipIdx.foldl (fun g (e, i) =>
    g.recordSite Graph.rootId { pc := i, target := e.ref, kind := .special }) (Graph.fresh serial)
  { world, graph, worklist := (CallGraph.fakeRoot graph).toList }

/-- The closure of a list of entrypoints, and why it was cut short if it was.
    Every node read is the root or the node of a distinct unit of the
    hierarchy. -/
def build (h : Hierarchy σ) (world : σ) (serial : Nat) (applicationOnly : Bool)
    (entrypoints : List CodeUnit) (life : Lifetime) : Closure σ × Option EndCause :=
  run h applicationOnly (h.bound + 1) life (start world serial entrypoints)

end Closure

end CallAtlas
