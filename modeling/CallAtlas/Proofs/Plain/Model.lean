import CallAtlas.Proofs.Edits
import Mathlib.Data.Finset.Insert
import Mathlib.Data.Finset.Filter

/-!
# The Plain Call Graph

A stored graph keeps each edge at both of its ends, attributes it to sites, counts it,
and finds nodes through indexes. A plain graph keeps everything once: the nodes ever
made in one list, with a flag that tells those that are still there, the edges as a set
of pairs of numbers, and the targets as a set of triples. Nothing is looked up in an
index, every question is a comprehension, and a removal deletes whatever mentions
what is removed.

A plain graph takes the edits of the stored graph and refuses them for the same reasons.
It is the specification that the stored graph is measured by, so no definition here uses
one of the stored graph.

Rows are found by their whole node and not by number. Changing one row is then a map
over the rows that needs no arithmetic on positions, and a node of another graph is
told apart without a test of its own.

## Main definitions

* `Roll`: A list in order of entry that holds nothing twice.
* `PlainGraph`: Rows, edges, targets and entrypoints.
* `PlainGraph.attempt`, `PlainGraph.after`, `PlainGraph.afterAll`: The edits.

## Theorems

* `PlainGraph.live_kill`, `PlainGraph.live_record`: What the edits do to the nodes.
* `PlainGraph.sitesOf_kill`, `PlainGraph.sitesOf_record`: What they do to the sites.
-/

namespace CallAtlas

/-- A list in order of entry that holds nothing twice. -/
structure Roll (α : Type) where
  toList : List α
  nodup : toList.Nodup

namespace Roll

variable {α : Type} [DecidableEq α]

def empty : Roll α := ⟨[], List.nodup_nil⟩

/-- Enters a member; one that is there already keeps its place. -/
def enter (r : Roll α) (a : α) : Roll α :=
  if h : a ∈ r.toList then r
  else ⟨r.toList ++ [a], by rw [← List.concat_eq_append]; exact r.nodup.concat h⟩

/-- Strikes a member off. -/
def strike (r : Roll α) (a : α) : Roll α := ⟨r.toList.filter (· ≠ a), r.nodup.filter _⟩

/-- A member that is entered stands last, unless it was a member already. -/
theorem toList_enter (r : Roll α) (a : α) :
    (r.enter a).toList = if a ∈ r.toList then r.toList else r.toList ++ [a] := by
  unfold enter
  split <;> rfl

end Roll

/-- A node that was made once, with its recorded sites in order of recording. -/
structure PlainGraph.Row where
  node : Node
  /-- Whether the node is still there. -/
  alive : Bool := true
  sites : Roll CallSite := .empty

/-- A call graph that says everything once. -/
structure PlainGraph where
  serial : Nat
  /-- The nodes ever made, in order of making. -/
  rows : List PlainGraph.Row := []
  /-- The pairs of caller and callee. -/
  edges : Finset (Int × Int) := ∅
  /-- The triples of caller, site and callee. -/
  triples : Finset (Int × CallSite × Int) := ∅
  /-- The numbers of the entrypoints in order of registration. -/
  entrypoints : Roll Int := .empty
  frozen : Bool := false

namespace PlainGraph

/-! ## Questions -/

/-- The nodes that are there. -/
def live (p : PlainGraph) : List Node := (p.rows.filter (·.alive)).map (·.node)

/-- The row of a node that is there. -/
def row? (p : PlainGraph) (n : Node) : Option Row := p.rows.find? fun x => x.alive && x.node = n

/-- The sites recorded for a node that is there. -/
def sitesOf (p : PlainGraph) (n : Node) : List CallSite :=
  match p.row? n with
  | some x => x.sites.toList
  | none => []

/-- The node with a given number. -/
def node? (p : PlainGraph) (i : Int) : Option Node := p.live.find? fun n => n.id = i

/-- The node of a unit in a context. -/
def lookup (p : PlainGraph) (u : CodeUnit) (c : Context) : Option Node :=
  p.live.find? fun n => n.unit = u ∧ n.context = c

/-- Whether one node calls another. -/
def hasEdge (p : PlainGraph) (a b : Node) : Bool :=
  a ∈ p.live ∧ b ∈ p.live ∧ (a.id, b.id) ∈ p.edges

/-- Whether a site of one node may invoke another. -/
def invokes (p : PlainGraph) (a : Node) (site : CallSite) (b : Node) : Bool :=
  a ∈ p.live ∧ b ∈ p.live ∧ (a.id, site, b.id) ∈ p.triples

instance : CallGraph PlainGraph where
  fakeRoot p := p.node? 0
  fakeWorldClinit p := p.node? 1
  entrypoints p := p.entrypoints.toList.filterMap p.node?
  node? := node?
  lookup := lookup
  nodesOf p u := p.live.filter fun n => n.unit = u
  nodes := live
  nodeCount p := p.live.length
  maxId p := (p.rows.length : Int) - 1
  contains p n := n ∈ p.live
  succs p n := p.live.filter fun m => p.hasEdge n m
  preds p n := p.live.filter fun m => p.hasEdge m n
  succCount p n := if n ∈ p.live then (p.edges.filter fun e => e.1 = n.id).card else 0
  predCount p n := if n ∈ p.live then (p.edges.filter fun e => e.2 = n.id).card else 0
  hasEdge := hasEdge
  callSites := sitesOf
  targets p n site := p.live.filter fun m => p.invokes n site m
  sitesBetween p a b := (p.sitesOf a).filter fun site => p.invokes a site b

/-! ## Edits -/

/-- Adds a row for a node with the next number. -/
def add (p : PlainGraph) (unit : CodeUnit) (context : Context) (kind : NodeKind) :
    PlainGraph × Node :=
  let node : Node := { serial := p.serial, id := p.rows.length, unit, context, kind }
  ({ p with rows := p.rows ++ [{ node }] }, node)

/-- The graph that holds only the two synthetic roots. -/
def fresh (serial : Nat) : PlainGraph :=
  let p : PlainGraph := { serial }
  let p := (p.add .fakeRoot .everywhere .fakeRoot).1
  (p.add .fakeWorldClinit .everywhere .fakeWorldClinit).1

/-- Changes the row of a node. -/
def amend (p : PlainGraph) (n : Node) (f : Row → Row) : PlainGraph :=
  { p with rows := p.rows.map fun x => if x.node = n then f x else x }

/-- Records a site of a node. -/
def record (p : PlainGraph) (n : Node) (site : CallSite) : PlainGraph :=
  p.amend n fun x => { x with sites := x.sites.enter site }

/-- Deletes an edge and every triple that has its ends. -/
def cut (p : PlainGraph) (a b : Node) : PlainGraph :=
  { p with
    edges := p.edges.filter fun e => ¬ (e.1 = a.id ∧ e.2 = b.id)
    triples := p.triples.filter fun t => ¬ (t.1 = a.id ∧ t.2.2 = b.id) }

/-- Clears the flag of a node and deletes its sites and whatever mentions it. -/
def kill (p : PlainGraph) (n : Node) : PlainGraph :=
  { p.amend n fun x => { x with alive := false, sites := .empty } with
    edges := p.edges.filter fun e => e.1 ≠ n.id ∧ e.2 ≠ n.id
    triples := p.triples.filter fun t => t.1 ≠ n.id ∧ t.2.2 ≠ n.id
    entrypoints := p.entrypoints.strike n.id }

/-- The argument, or the refusal of one that is no node of this graph. -/
def require (p : PlainGraph) : Option Node → Except GraphError Node
  | some n => if n ∈ p.live then .ok n else .error (.nodeNotFound (some n))
  | none => .error (.nodeNotFound none)

def requireThawed (p : PlainGraph) : Except GraphError Unit :=
  if p.frozen then .error .frozen else .ok ()

/-- The node of a unit in a context, made if it is not there yet. -/
def findOrCreate (p : PlainGraph) :
    Option CodeUnit → Option Context → Except GraphError (PlainGraph × Node)
  | some u, some c =>
    match p.lookup u c with
    | some n => .ok (p, n)
    | none => if p.frozen then .error .frozen else .ok (p.add u c .ordinary)
  | _, _ => .error .noUnit

/-- Makes an edit, or refuses it. -/
def attempt (p : PlainGraph) : Graph.Edit → Except GraphError PlainGraph
  | .findOrCreate u c => (p.findOrCreate u c).map Prod.fst
  | .registerEntrypoint n => do
    let n ← p.require n
    return { p with entrypoints := p.entrypoints.enter n.id }
  | .addEdge src dst => do
    p.requireThawed
    let a ← p.require src
    let b ← p.require dst
    return { p with edges := insert (a.id, b.id) p.edges }
  | .addSite n site => do
    p.requireThawed
    let n ← p.require n
    return p.record n site
  | .addCall src site dst => do
    p.requireThawed
    let a ← p.require src
    let b ← p.require dst
    return { p.record a site with
      edges := insert (a.id, b.id) p.edges
      triples := insert (a.id, site, b.id) p.triples }
  | .removeEdge src dst => do
    p.requireThawed
    let a ← p.require src
    let b ← p.require dst
    return p.cut a b
  | .removeNode n => do
    p.requireThawed
    let n ← p.require n
    if n.kind = .ordinary then return p.kill n
    else throw (.notRemovable n.kind)
  | .freeze => .ok { p with frozen := true }

/-- The graph after an edit. A refused edit leaves it as it was. -/
def after (p : PlainGraph) (e : Graph.Edit) : PlainGraph :=
  match p.attempt e with
  | .ok p' => p'
  | .error _ => p

/-- The graph after a sequence of edits. -/
def afterAll (p : PlainGraph) (es : List Graph.Edit) : PlainGraph := es.foldl after p

/-! ## What the edits do to nodes and sites -/

variable {p : PlainGraph}

theorem node_of_row? {n : Node} {x : Row} (h : p.row? n = some x) : x.node = n := by
  have hx := List.find?_some h
  simp only [Bool.and_eq_true, decide_eq_true_iff] at hx
  exact hx.2

/-- A node is live if there is a row of it that is alive. Rows of removed nodes stay in
    the list, so that numbers are not given out again. -/
theorem mem_live_iff {n : Node} : n ∈ p.live ↔ (p.row? n).isSome := by
  rw [row?, List.find?_isSome, live, List.mem_map]
  simp only [List.mem_filter, Bool.and_eq_true, decide_eq_true_iff, and_assoc]

/-- A node that is not there has no sites, even if it had some before it was removed. -/
theorem sitesOf_of_not_mem {n : Node} (h : n ∉ p.live) : p.sitesOf n = [] := by
  rw [mem_live_iff, Option.not_isSome_iff_eq_none] at h
  rw [sitesOf, h]

theorem live_add (p : PlainGraph) (u : CodeUnit) (c : Context) (k : NodeKind) :
    (p.add u c k).1.live = p.live ++ [(p.add u c k).2] := by
  simp [add, live, List.filter_append]

/-- A new row has no sites, so it makes no difference whether it is found. -/
theorem sitesOf_add (p : PlainGraph) (u : CodeUnit) (c : Context) (k : NodeKind) (n : Node) :
    (p.add u c k).1.sitesOf n = p.sitesOf n := by
  simp only [sitesOf, row?, add, List.find?_append]
  cases p.rows.find? fun x => x.alive && x.node = n with
  | some x => rfl
  | none =>
      rw [Option.none_or, List.find?_singleton]
      -- If the new row is the one that is found, it has no sites.
      split
      · next h =>
          split at h
          · rw [← Option.some.inj h]
            rfl
          · cases h
      · rfl

/-- Recording a site changes neither the nodes nor which of them are alive. -/
theorem live_record (p : PlainGraph) (n : Node) (site : CallSite) :
    (p.record n site).live = p.live := by
  have hrow : ∀ x : Row, (if x.node = n then { x with sites := x.sites.enter site } else x).alive
      = x.alive ∧
      (if x.node = n then { x with sites := x.sites.enter site } else x).node = x.node := by
    intro x
    split <;> exact ⟨rfl, rfl⟩
  simp only [live, record, amend, List.filter_map, List.map_map, Function.comp_def, hrow]

/-- The row of a node after recording. Only a row of the node itself is amended, and
    amending leaves the two fields that a search looks at. -/
theorem row?_record (p : PlainGraph) (n : Node) (site : CallSite) (m : Node) :
    (p.record n site).row? m = (p.row? m).map fun x =>
      if x.node = n then { x with sites := x.sites.enter site } else x := by
  rw [row?, record, amend, List.find?_map, row?]
  congr 2
  funext x
  simp only [Function.comp_apply]
  split <;> rfl

/-- A recorded site stands behind the sites of its node. This is word for word what a
    stored graph does, and the condition is on nodes here where it is on numbers there. -/
theorem sitesOf_record {n : Node} (hn : n ∈ p.live) (site : CallSite) (m : Node) :
    (p.record n site).sitesOf m =
      if m = n ∧ site ∉ p.sitesOf n then p.sitesOf m ++ [site] else p.sitesOf m := by
  rw [sitesOf, row?_record]
  by_cases hm : m = n
  · -- The node is there, so it has a row.
    subst hm
    rcases Option.isSome_iff_exists.1 (mem_live_iff.1 hn) with ⟨x, hx⟩
    simp only [sitesOf, hx, Option.map_some, node_of_row? hx, if_pos, Roll.toList_enter, true_and]
    split <;> simp_all
  · cases hx : p.row? m with
    | none => simp [sitesOf, hx, hm]
    | some x => simp [sitesOf, hx, node_of_row? hx, hm]

/-- Removing a node takes it from the list. The induction is along the rows, of which
    any number may be of the node: that there is only one is not needed. -/
theorem live_kill (p : PlainGraph) (n : Node) : (p.kill n).live = p.live.filter (· ≠ n) := by
  simp only [live, kill, amend]
  induction p.rows with
  | nil => rfl
  | cons x rest ih =>
      by_cases hx : x.node = n
      · cases ha : x.alive <;> simp_all
      · cases ha : x.alive <;> simp_all

/-- The sites of another node stay. A row of the removed node is skipped by the search
    before and after. -/
theorem sitesOf_kill {n m : Node} (hm : m ≠ n) : (p.kill n).sitesOf m = p.sitesOf m := by
  have hrow : (p.kill n).row? m = p.row? m := by
    simp only [row?, kill, amend]
    induction p.rows with
    | nil => rfl
    | cons x rest ih =>
        rw [List.map_cons, List.find?_cons, List.find?_cons, ih]
        by_cases hx : x.node = n
        · have hother : ¬ n = m := fun h => hm h.symm
          simp [hx, hother]
        · simp [hx]
  rw [sitesOf, sitesOf, hrow]

end PlainGraph

end CallAtlas
