import CallAtlas.Proofs.Closure.Prefix

/-!
# A Closure That Asks

The closure writes to its graph without asking whether it may. `Closure.build` makes nodes, records
sites and links calls by the additions behind the checked edits, at numbers that it takes to be
those of nodes. A builder in the position of an outside caller cannot do that. It has the edits
only, each of which may be refused, and it has to hand on the refusal.

`Guarded` is that builder. It looks the two synthetic nodes up each time it needs one, and tells
the root by comparing nodes and not numbers. It asks the same hierarchy in the same order. That it
ends with the same state, and never with a refusal, rests on what the order of a closure says of
every state on the way: the graph takes edits, the node that is being read is in it, so are the
synthetic ones, and a callee is there once it was looked for. Nothing is assumed of the hierarchy.

## Main definitions

* `Closure.Guarded.build`: The closure of a list of entrypoints by edits that may be refused.
* `Closure.Busy`: The states in which a node is being read.

## Theorems

* `Closure.Guarded.link_eq`, `Closure.Guarded.visitSite_eq`, `Closure.Guarded.step_eq`: While a
  node is read, no edit is refused.
* `Closure.Guarded.build_eq`: No edit of a whole run is refused.
-/

namespace CallAtlas

/-- A fold of steps that may fail is a plain fold where each step is known not to. What makes a
    step succeed may depend on the steps before it, so it is a property that the steps keep. -/
theorem foldlM_eq_ok {α β ε : Type} {f : β → α → Except ε β} {f' : β → α → β} {P : β → Prop}
    {l : List α} (hstep : ∀ b, P b → ∀ x ∈ l, f b x = .ok (f' b x) ∧ P (f' b x)) {b : β}
    (hb : P b) : l.foldlM f b = .ok (l.foldl f' b) ∧ P (l.foldl f' b) := by
  induction l generalizing b with
  | nil => exact ⟨rfl, hb⟩
  | cons x rest ih =>
      rcases hstep b hb x List.mem_cons_self with ⟨hx, hb'⟩
      rw [List.foldlM_cons, List.foldl_cons, hx]
      exact ih (fun b hb y hy => hstep b hb y (List.mem_cons_of_mem x hy)) hb'

namespace Closure

open CallAtlas.Graph (rootId clinitId)

variable {σ : Type}

/-! ## The builder -/

namespace Guarded

/-- Makes a node for a unit and puts it on the worklist. -/
def newNode (c : Closure σ) (u : CodeUnit) : Except GraphError (Node × Closure σ) := do
  let (graph, n) ← c.graph.findOrCreate (some u) (some .everywhere)
  return (n, { c with graph, worklist := n :: c.worklist, created := c.created + 1 })

/-- Makes a node for the initializer of a class, unless it has one, and links it from
    the fake world-clinit node. -/
def linkInitializer (c : Closure σ) (u : CodeUnit) : Except GraphError (Closure σ) :=
  if (c.graph.lookup u .everywhere).isSome then return c
  else do
    let (n, c) ← newNode c u
    let site : CallSite := { pc := c.initializers, target := u.ref, kind := .static }
    let graph ← c.graph.addCall (CallGraph.fakeWorldClinit c.graph) site (some n)
    return { c with graph, initializers := c.initializers + 1 }

/-- The node of a unit, made if it is not there yet, together with the initializer of its class. -/
def nodeFor (h : Hierarchy σ) (c : Closure σ) (u : CodeUnit) :
    Except GraphError (Node × Closure σ) :=
  match c.graph.lookup u .everywhere with
  | some n => return (n, c)
  | none => do
    let (n, c) ← newNode c u
    match c.ask (.initializer u) (h.initializer u) with
    | (none, c) => return (n, c)
    | (some i, c) => return (n, ← linkInitializer c i)

/-- Links a site to a candidate. What the fake root calls is an entrypoint. -/
def link (h : Hierarchy σ) (n : Node) (site : CallSite) (c : Closure σ) (u : CodeUnit) :
    Except GraphError (Closure σ) := do
  let (callee, c) ← nodeFor h c u
  let graph ←
    if CallGraph.fakeRoot c.graph = some n then c.graph.registerEntrypoint (some callee)
    else pure c.graph
  return { c with graph := ← graph.addCall (some n) site (some callee) }

/-- Records a site and links it to its relevant candidates. -/
def visitSite (h : Hierarchy σ) (applicationOnly : Bool) (n : Node) (c : Closure σ)
    (site : CallSite) : Except GraphError (Closure σ) := do
  let c := { c with graph := ← c.graph.addSite (some n) site }
  let (us, c) := if site.kind = .dynamic then c.resolveWrapper h n site else c.resolve h site
  (us.filter (relevant h applicationOnly)).foldlM (link h n site) c

/-- Reads the code of the node that was taken off the worklist. -/
def step (h : Hierarchy σ) (applicationOnly : Bool) (c : Closure σ) (n : Node) :
    Except GraphError (Closure σ) :=
  let c := { c with pops := c.pops + 1 }
  let (sites, c) := c.sitesOf h n
  sites.foldlM (visitSite h applicationOnly n) c

/-- Reads up to `steps` nodes, looking before each whether the caller waits. -/
def run (h : Hierarchy σ) (applicationOnly : Bool) :
    (steps : Nat) → Lifetime → Closure σ → Except GraphError (Closure σ × Option EndCause)
  | 0, _, c => return (c, none)
  | steps + 1, life, c =>
    match c.worklist with
    | [] => return (c, none)
    | n :: rest =>
      match life.poll with
      | (some cause, _) => return (c, some cause)
      | (none, life) => do
        run h applicationOnly steps life (← step h applicationOnly { c with worklist := rest } n)

/-- The closure before any node is read: entrypoint `i` is a call site of the fake root
    with program counter `i`. -/
def start (world : σ) (serial : Nat) (entrypoints : List CodeUnit) :
    Except GraphError (Closure σ) := do
  let graph ← entrypoints.zipIdx.foldlM (fun g (e, i) =>
    g.addSite (CallGraph.fakeRoot g) { pc := i, target := e.ref, kind := .special })
    (Graph.fresh serial)
  return { world, graph, worklist := (CallGraph.fakeRoot graph).toList }

/-- The closure of a list of entrypoints, and why it was cut short if it was, or the
    first edit that was refused. -/
def build (h : Hierarchy σ) (world : σ) (serial : Nat) (applicationOnly : Bool)
    (entrypoints : List CodeUnit) (life : Lifetime) :
    Except GraphError (Closure σ × Option EndCause) := do
  run h applicationOnly (h.bound + 1) life (← start world serial entrypoints)

end Guarded

/-! ## States in which a node is read -/

variable {h : Hierarchy σ} {n : Node} {c : Closure σ}

/-- A node is being read. -/
structure Busy (h : Hierarchy σ) (n : Node) (c : Closure σ) : Prop where
  orderly : Orderly h (some n) c.bare
  cached : Cached h c

namespace Busy

theorem thawed (hc : Busy h n c) : c.graph.frozen = false := hc.orderly.thawed

theorem wellFormed (hc : Busy h n c) : c.graph.WellFormed := hc.orderly.wellFormed

theorem contains (hc : Busy h n c) : c.graph.contains n := (hc.orderly.busy_node rfl).1

theorem congr {c' : Closure σ} (hc : Busy h n c) (hbare : c'.bare = c.bare)
    (hcached : Cached h c') : Busy h n c' :=
  ⟨hbare ▸ hc.orderly, hcached⟩

theorem newNode (hc : Busy h n c) {u : CodeUnit} (hl : c.graph.lookup u .everywhere = none)
    (hu : h.Mentions u) : Busy h n (c.newNode u).2 :=
  ⟨(hc.orderly.newNode hl hu).orderly, hc.cached.congr rfl rfl⟩

/-- The node that was looked for is there, whether it was found or made. -/
theorem nodeFor (hc : Busy h n c) {u : CodeUnit} (hu : h.Mentions u) :
    Busy h n (c.nodeFor h u).2 ∧ (c.nodeFor h u).2.graph.contains (c.nodeFor h u).1 := by
  rcases found_nodeFor hc.cached hu with ⟨hfound, hcached⟩
  rcases hc.orderly.found hfound with ⟨hproc, hcallee⟩
  exact ⟨⟨hproc.orderly, hcached⟩, hcallee⟩

theorem link (hc : Busy h n c) (site : CallSite) {u : CodeUnit} (hu : h.Mentions u) :
    Busy h n (c.link h n site u) := by
  rcases move_link (n := n) hc.cached site hu with ⟨hmove, hcached⟩
  exact ⟨(hc.orderly.move hmove).orderly, hcached⟩

theorem record (hc : Busy h n c) (site : CallSite) :
    Busy h n { c with graph := c.graph.recordSite n.id site } :=
  ⟨(hc.orderly.record site).orderly, hc.cached.congr rfl rfl⟩

/-- Visiting a site does not end the reading of a node either, so the next site may be visited. -/
theorem visitSite (hc : Busy h n c) (only : Bool) (site : CallSite) :
    Busy h n (c.visitSite h only n site) := by
  rcases moves_visitSite (n := n) hc.cached only site with ⟨hmoves, hcached⟩
  exact ⟨(hc.orderly.moves hmoves).orderly, hcached⟩

end Busy

/-! ## No edit is refused -/

namespace Guarded

/-- An unknown unit is not refused a node, since the graph of a closure is never frozen. -/
theorem newNode_eq (hf : c.graph.frozen = false) {u : CodeUnit}
    (hl : c.graph.lookup u .everywhere = none) : newNode c u = .ok (c.newNode u) := by
  rw [newNode, Graph.findOrCreate_of_lookup hf hl]
  rfl

/-- The fake world-clinit node is in every graph, so a call from it is accepted. The other
    end is the node that was made for the initializer just before. -/
theorem linkInitializer_eq (hc : Busy h n c) {i : CodeUnit} (hi : h.Mentions i) :
    linkInitializer c i = .ok (c.linkInitializer i) := by
  cases hl : c.graph.lookup i .everywhere with
  | some m =>
      rw [linkInitializer_of_some hl, linkInitializer, hl]
      rfl
  | none =>
      have hmade := hc.newNode hl hi
      have hclinit : (c.newNode i).2.graph.contains c.clinitNode :=
        Graph.contains_iff.2 hmade.wellFormed.clinit
      have hlookup : CallGraph.fakeWorldClinit (c.newNode i).2.graph = some c.clinitNode :=
        hmade.wellFormed.clinit
      have hnew : (c.newNode i).2.graph.contains (c.newNode i).1 :=
        Graph.contains_create.2 (Or.inr rfl)
      have hcall := Graph.addCall_of_contains hmade.thawed hclinit hnew
        { pc := (c.newNode i).2.initializers, target := i.ref, kind := .static }
      rw [linkInitializer, Closure.linkInitializer, hl, newNode_eq hc.thawed hl]
      -- From here on the state after making the node is opaque, and only what is known of it
      -- is used.
      revert hlookup hcall
      rcases c.newNode i with ⟨m, c'⟩
      intro hlookup hcall
      simp only [bind, Except.bind, hlookup, hcall]
      rfl

/-- Looking for a node succeeds. The hierarchy is asked in between, which changes
    nothing that an edit checks. -/
theorem nodeFor_eq (hc : Busy h n c) {u : CodeUnit} (hu : h.Mentions u) :
    nodeFor h c u = .ok (c.nodeFor h u) := by
  unfold nodeFor Closure.nodeFor
  cases hl : c.graph.lookup u .everywhere with
  | some m => rfl
  | none =>
      rcases hask : (c.newNode u).2.ask (.initializer u) (h.initializer u) with ⟨o, c'⟩
      have hbare : c'.bare = (c.newNode u).2.bare := (congrArg (fun r => r.2.bare) hask).symm
      have hanswer : ((h.initializer u).run c.world).1 = o := congrArg Prod.fst hask
      -- The caches are not written by this question.
      have hcached : Cached h c' := by
        have hstate : ((c.newNode u).2.ask (.initializer u) (h.initializer u)).2 = c' :=
          congrArg Prod.snd hask
        rw [← hstate]
        exact hc.cached.congr rfl rfl
      have hc' := (hc.newNode hl hu).congr hbare hcached
      simp only [newNode_eq hc.thawed hl, bind, Except.bind, hask]
      cases o with
      | none => rfl
      | some i =>
          simp only [linkInitializer_eq hc' (.initializer c.world hanswer)]
          rfl

/-- A callee is there once it was looked for, so it can be registered and called. The
    guarded builder compares the node that is read with the fake root of the graph, and the
    other compares its number: the two agree since a well-formed graph stores a node under
    its own number. -/
theorem link_eq (hc : Busy h n c) (site : CallSite) {u : CodeUnit} (hu : h.Mentions u) :
    link h n site c u = .ok (c.link h n site u) := by
  rcases hc.nodeFor hu with ⟨hc', hcallee⟩
  have hroot : CallGraph.fakeRoot (c.nodeFor h u).2.graph = some n ↔ n.id = rootId := by
    change (c.nodeFor h u).2.graph.node? rootId = some n ↔ _
    constructor
    · exact fun hnode => hc'.wellFormed.id_eq hnode
    · intro hid
      rw [← hid]
      exact Graph.contains_iff.1 hc'.contains
  unfold link Closure.link
  rw [nodeFor_eq hc hu]
  revert hc' hcallee hroot
  rcases c.nodeFor h u with ⟨m, c'⟩
  intro hc' hcallee hroot
  have hn := hc'.contains
  have hf := hc'.thawed
  by_cases hid : n.id = rootId
  · -- Registering the callee takes no node away.
    have hn' := (Graph.contains_markEntrypoint c'.graph m.id n).trans hn
    have hcallee' := (Graph.contains_markEntrypoint c'.graph m.id m).trans hcallee
    have hf' := (Graph.frozen_markEntrypoint c'.graph m.id).trans hf
    simp only [bind, Except.bind, if_pos hid, if_pos (hroot.2 hid),
      Graph.registerEntrypoint_of_contains hcallee, Graph.addCall_of_contains hf' hn' hcallee']
    rfl
  · simp only [bind, Except.bind, if_neg hid, if_neg (mt hroot.1 hid), pure, Except.pure,
      Graph.addCall_of_contains hf hn hcallee]

/-- No edit at a site of the node that is being read is refused. Each link leaves a
    state in which the node is still being read, so the next one is accepted for the
    same reasons. -/
theorem visitSite_eq (hc : Busy h n c) (only : Bool) (site : CallSite) :
    visitSite h only n c site = .ok (c.visitSite h only n site) := by
  have hc₁ := hc.record site
  rcases mentions_answer (n := n) hc₁.cached site with ⟨us, c₂, hask, hbare, hcached, hus⟩
  -- The links are made one by one, and each of them leaves the node being read.
  have hlinks := foldlM_eq_ok (l := us.filter (relevant h only)) (P := Busy h n)
    (fun b hb u hu => by
      have hmem := hus u (List.mem_of_mem_filter hu)
      exact ⟨link_eq hb site hmem, hb.link site hmem⟩) (hc₁.congr hbare hcached)
  simp only [visitSite, Closure.visitSite, Graph.addSite_of_contains hc.thawed hc.contains, bind,
    Except.bind, hask]
  exact hlinks.1

/-- No edit is refused while a node is read. This is a fold over its sites, with the
    node being read as what each site may rely on. -/
theorem step_eq (hc : Orderly h none c.bare) (hcached : Cached h c) {rest : List Node}
    (hw : c.worklist = n :: rest) (only : Bool) :
    step h only { c with worklist := rest } n =
      .ok (Closure.step h only { c with worklist := rest } n) := by
  have hpop : Cached h { c with worklist := rest, pops := c.pops + 1 } := hcached.congr rfl rfl
  rcases bare_sitesOf (n := n) hpop with ⟨hbare, hcached₁⟩
  have htaken : Busy h n { c with worklist := rest, pops := c.pops + 1 } := ⟨hc.take hw, hpop⟩
  exact (foldlM_eq_ok (P := Busy h n)
    (fun b hb site _ => ⟨visitSite_eq hb only site, hb.visitSite only site⟩)
    (htaken.congr hbare hcached₁)).1

/-- No edit of a run is refused, and it is cut where the other run is cut. The induction
    is on the steps. What is known between two steps, that the worklist is in order and the
    caches are right, holds after each step again. -/
theorem run_eq (only : Bool) (steps : Nat) (life : Lifetime) (hc : Orderly h none c.bare)
    (hcached : Cached h c) : run h only steps life c = .ok (Closure.run h only steps life c) := by
  induction steps generalizing c life with
  | zero => rfl
  | succ steps ih =>
      unfold run Closure.run
      -- Both runs look at the worklist and at the caller in the same order.
      cases hw : c.worklist with
      | nil => rfl
      | cons n rest =>
          rcases life.poll with ⟨cause, life'⟩
          cases cause with
          | some cause => rfl
          | none =>
              rcases hc.step hcached hw only with ⟨hc₁, hcached₁, _⟩
              simp only [step_eq hc hcached hw only, bind, Except.bind]
              exact ih life' hc₁ hcached₁

/-- A fresh graph has its root, and keeps it while the entrypoints are recorded there. The
    guarded builder looks the root up for each entrypoint, and finds the same node each
    time. -/
theorem start_eq (world : σ) (serial : Nat) (entries : List CodeUnit) :
    start world serial entries = .ok (Closure.start world serial entries) := by
  let root : Node := ⟨serial, rootId, .fakeRoot, .everywhere, .fakeRoot⟩
  -- Recording a site at the root keeps what the next recording needs.
  have hstep : ∀ g : Graph, g.frozen = false ∧ g.node? rootId = some root →
      ∀ p ∈ entries.zipIdx,
        g.addSite (CallGraph.fakeRoot g) { pc := p.2, target := p.1.ref, kind := .special } =
          .ok (g.recordSite rootId { pc := p.2, target := p.1.ref, kind := .special }) ∧
        (g.recordSite rootId { pc := p.2, target := p.1.ref, kind := .special }).frozen = false ∧
        (g.recordSite rootId { pc := p.2, target := p.1.ref, kind := .special }).node? rootId =
          some root := by
    rintro g ⟨hf, hroot⟩ p _
    have hkeeps := Graph.keeps_recordSite g rootId { pc := p.2, target := p.1.ref, kind := .special }
    have hlookup : CallGraph.fakeRoot g = some root := hroot
    rw [hlookup]
    exact ⟨Graph.addSite_of_contains hf (Graph.contains_iff.2 hroot) _,
      hkeeps.frozen.trans hf, (hkeeps.node? rootId).trans hroot⟩
  have hfresh : (Graph.fresh serial).frozen = false ∧ (Graph.fresh serial).node? rootId = some root :=
    ⟨rfl, (Graph.wellFormed_fresh serial).root⟩
  unfold start
  rw [(foldlM_eq_ok hstep hfresh).1]
  rfl

/-- A builder that makes every addition by an edit, and would hand on a refusal, has none to hand
    on: whatever the hierarchy answers and whenever the caller leaves, it ends in the state that
    `Closure.build` ends in. The additions that `Closure.build` makes without asking are therefore
    the edits of a caller, each of them accepted. -/
theorem build_eq (h : Hierarchy σ) (world : σ) (serial : Nat) (only : Bool)
    (entries : List CodeUnit) (life : Lifetime) :
    build h world serial only entries life = .ok (Closure.build h world serial only entries life) := by
  rw [build, start_eq]
  exact run_eq only (h.bound + 1) life (orderly_start h world serial entries)
    (cached_start h world serial entries)

end Guarded

end Closure

end CallAtlas
