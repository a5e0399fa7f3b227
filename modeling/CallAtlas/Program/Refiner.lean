import CallAtlas.Program.World
import CallAtlas.Prune.View
import CallAtlas.Refine.Loop

/-!
# Narrowing Call Sites

Variable type analysis often knows better than the hierarchy which callees a call has.
The refiner narrows dispatching call sites to the callees it finds, as far as policy
and budget admit. A site is narrowed once, and stays so in later passes.

An edge is to be hidden if it comes from sites that are all narrowed, and none of
them kept its end.

## Main definitions

* `Refiner`: The sites narrowed so far.
* `scan`: Going over a list until an element ends it.
* `Refiner.narrow`: The targets that a site keeps.
* `Refiner.visitSite`, `Refiner.visitNode`: What a pass does at a site and at a node.
* `Refiner.pass`: One pass over the sites of a graph.
* `Refiner.query`: A pass as the loop runs it.
* `Refiner.overlay`: The edges to be hidden.
* `Program.callEdges`: The calls of a graph, by label.
-/

namespace CallAtlas

/-- The sites narrowed so far with the targets they keep, by the number of the caller,
    and how often a site was declined. -/
structure Refiner where
  narrowed : Table (Int × CallSite) IdSet := .empty
  declined : Nat := 0

/-- What tells callees apart: the declared object, or the function if there is none. A
    method and its wrappers count as one. -/
def Program.calleeKey (p : Program) (f : Nat) : Nat ⊕ Nat :=
  match (p.function f).object with
  | some o => .inl o
  | none => .inr f

/-- Whether variable type analysis lists a callee for an instruction. -/
def Program.lists (p : Program) (caller position callee : Nat) : Bool :=
  p.callees.any fun e =>
    e.1 = caller && e.2.1 = position && p.calleeKey e.2.2 = p.calleeKey callee

/-- Goes over a list with a running value until an element ends it. -/
def scan {α σ ε : Type} (visit : α → σ → Option ε × σ) : List α → σ → Option ε × σ
  | [], s => (none, s)
  | a :: rest, s =>
    match visit a s with
    | (some e, s) => (some e, s)
    | (none, s) => scan visit rest s

/-- A pass in progress. -/
structure RefinePass (π : Type) where
  state : PassState Refiner π
  budget : Budget
  satisfied : Bool := true

namespace Refiner

variable {G π : Type} [CallGraph G] [RefinementPolicy π]

/-- The targets that a site keeps: those that are no functions of the program, all if
    the caller was not analysed, and those that the analysis lists. -/
def narrow (p : Program) (g : G) (n : Node) (caller position : Nat) (site : CallSite) : IdSet :=
  .ofList (((CallGraph.targets g n site).filter fun t =>
    match t.unit.function? with
    | none => true
    | some callee => !p.analysed.contains caller || p.lists caller position callee).map (·.id))

/-- Asks the policy about the field that a receiver comes from. A receiver that comes
    from none is admitted. -/
def admitsOrigin (p : Program) (policy : π) (origin : Origin) : Bool × π :=
  match origin.field? with
  | none => (true, policy)
  | some f => RefinementPolicy.admitsField p.typeHierarchy policy f

/-- Looks at one site. -/
def visitSite (p : Program) (g : G) (n : Node) (caller : Nat) (site : CallSite)
    (r : RefinePass π) : Option (PassError EndCause) × RefinePass π :=
  if !site.kind.isOverriding || r.state.query.narrowed.contains (n.id, site) then (none, r)
  else
    let (admitted, policy) := RefinementPolicy.admitsSite r.state.policy n site
    let s := { r.state with policy }
    match admitted, p.siteInstruction? caller site.pc with
    | false, _ | true, none => (none, { r with state := s })
    | true, some (i, position) =>
      if !i.operation.isCall then (none, { r with state := s })
      else
        let (admitted, policy) := admitsOrigin p s.policy i.operation.origin
        let s := { s with policy }
        if !admitted then
          let query := { s.query with declined := s.query.declined + 1 }
          (none, { r with state := { s with query }, satisfied := false })
        else
          match r.budget.charge 1 with
          | (budget, false) => (some .outOfBudget, { r with state := s, budget })
          | (budget, true) =>
            let kept := narrow p g n caller position site
            let query := { s.query with narrowed := s.query.narrowed.insert (n.id, site) kept }
            (none, { r with state := { s with query }, budget })

/-- Looks at the sites of a node, if the caller still waits and the node is a function of
    the program. -/
def visitNode (p : Program) (g : G) (n : Node) (r : RefinePass π) :
    Option (PassError EndCause) × RefinePass π :=
  match r.state.life.poll with
  | (some cause, life) => (some (.failed cause), { r with state := { r.state with life } })
  | (none, life) =>
    let r := { r with state := { r.state with life } }
    match n.unit.function? with
    | none => (none, r)
    | some caller => scan (visitSite p g n caller) (CallGraph.callSites g n) r

/-- One pass over the sites of a graph. It is satisfied if no site was declined. -/
def pass (p : Program) (g : G) (budget : Budget) (s : PassState Refiner π) :
    PassAnswer EndCause × Budget × PassState Refiner π :=
  match scan (visitNode p g) (CallGraph.nodes g) { state := s, budget } with
  | (some e, r) => ({ satisfied := false, error := some e }, r.budget, r.state)
  | (none, r) => ({ satisfied := r.satisfied }, r.budget, r.state)

/-- A pass as the loop runs it. -/
def query (p : Program) (g : G) : Query Refiner EndCause π := fun _ budget s =>
  match pass p g budget s with
  | (answer, _, s) => (answer, s)

/-- Whether an edge is to be hidden. -/
def hides (r : Refiner) (g : G) (e : Node × Node) : Bool :=
  let sites := CallGraph.sitesBetween g e.1 e.2
  !sites.isEmpty && sites.all fun s =>
    match r.narrowed.find? (e.1.id, s) with
    | some kept => !kept.contains e.2.id
    | none => false

/-- The edges to be hidden. -/
def overlay (r : Refiner) (g : G) : Overlay :=
  ((CallGraph.edges g).filter (r.hides g)).foldl (fun o e => o.hide e.1.id e.2.id) .empty

end Refiner

namespace Program

variable {G : Type} [CallGraph G]

/-- The calls of a node, by label: one for each site and function it may reach. -/
def callEdgesOf (p : Program) (g : G) (n : Node) : List String :=
  match n.unit.function? with
  | none => []
  | some caller =>
    (CallGraph.callSites g n).flatMap fun site =>
      if ((p.siteInstruction? caller site.pc).any fun e => e.1.operation.isCall) then
        (CallGraph.targets g n site).filterMap fun t =>
          t.unit.function?.map fun callee =>
            (p.function caller).label ++ " -> " ++ (p.function callee).label
      else []

/-- The calls of a graph, by label. -/
def callEdges (p : Program) (g : G) : List String :=
  ((CallGraph.nodes g).flatMap (p.callEdgesOf g)).mergeSort fun a b => a ≤ b

end Program

end CallAtlas
