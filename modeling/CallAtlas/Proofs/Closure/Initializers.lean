import CallAtlas.Proofs.Closure.Prefix
import CallAtlas.Proofs.Reach

/-!
# Initializers

The fake world-clinit node stands for whatever loads classes. It is meant to call the
initializer of every class that has a unit in the graph. This module says when it does.
It depends on how the node of the initializer came to be: the closure links an
initializer when it makes its node, and it makes the node only if there is none. An
initializer that an entrypoint or a call brings in before any other unit of its class
does is called from there, and the fake world-clinit node never calls it.

The invariant says of each node where it came from. A node that the fake world-clinit
node calls was made right after a node whose class it initializes, and every ordinary
node is called by one that was made before it. With the second, all nodes are led to
from the two roots, so an initializer that is not linked is not lost to a walk that
starts at both.

A move makes up to two nodes, and in between the invariant does not hold of them. It
has a list of nodes that are exempt, and these are settled when the move is over. That
the initializer of an initializer is nothing new is what allows to settle the second
node without a third.

## Main definitions

* `Graph.Brings`: A node was followed by the initializer of its class.
* `Graph.Attached`: Where the nodes of a graph came from.
* `Graph.Provided`: The initializer of a node's class is there and linked.

## Theorems

* `Graph.Attached.create`, `Graph.Attached.called`, `Graph.Attached.settle`: The parts of
  a move.
* `Graph.Attached.leadsTo`: Every node is led to from a root.
* `Closure.attached_call`, `Closure.attached_move`: Moves keep the nodes attached.
* `Closure.build_attaches`: What becomes of an initializer.
* `Closure.entered_before_class`: An initializer that is not linked.
-/

namespace CallAtlas

/-! ## Where nodes come from -/

namespace Graph

variable {a : Answers} {g : Graph} {fresh : List Node} {n m : Node}

/-- The node `m` was made right after `k` and is the initializer of its class. -/
structure Brings (a : Answers) (g : Graph) (k m : Node) : Prop where
  contains : g.contains k
  ordinary : k.kind = .ordinary
  initializer : a.initializer k.unit = some m.unit
  next : m.id = k.id + 1

/-- Initializers are there, the fake world-clinit node calls those that were made right
    after a node of their class, and every ordinary node is called by an older one.
    Nothing is said of the nodes that are still `fresh`: a node is made first, then its
    initializer is linked, and only then it is called. -/
structure Attached (a : Answers) (fresh : List Node) (g : Graph) : Prop where
  initialized : ∀ {k i}, g.contains k → k.kind = .ordinary → k ∉ fresh →
    a.initializer k.unit = some i → ∃ m, g.contains m ∧ m.unit = i
  brought : ∀ {m}, g.contains m → g.Calls clinitId m.id → ∃ k, Brings a g k m
  linked : ∀ {k m}, g.contains m → Brings a g k m → k ∉ fresh → g.Calls clinitId m.id
  descends : ∀ {m}, g.contains m → m.kind = .ordinary → m ∉ fresh →
    ∃ k, g.contains k ∧ k.id < m.id ∧ g.Calls k.id m.id

/-- Who brought whom depends on the nodes alone. -/
theorem brings_congr {g' : Graph} (hsame : ∀ {k}, g'.contains k ↔ g.contains k) {k : Node} :
    Brings a g' k m ↔ Brings a g k m :=
  ⟨fun h => ⟨hsame.1 h.contains, h.ordinary, h.initializer, h.next⟩,
    fun h => ⟨hsame.2 h.contains, h.ordinary, h.initializer, h.next⟩⟩

/-- A new node is exempt. No class had it for an initializer, since the initializers of all
    classes are there. -/
theorem Attached.create (h : Attached a fresh g) (hg : WellFormed g)
    (heverywhere : ∀ {n}, g.contains n → n.context = .everywhere) {u : CodeUnit}
    (hnew : g.lookup u .everywhere = none) :
    Attached a ((g.create u .everywhere .ordinary).2 :: fresh)
      (g.create u .everywhere .ordinary).1 := by
  let made := (g.create u .everywhere .ordinary).2
  have hold : ∀ {k}, (g.create u .everywhere .ordinary).1.contains k → k ∉ made :: fresh →
      g.contains k ∧ k ∉ fresh := by
    intro k hk hnot
    rw [List.mem_cons, not_or] at hnot
    exact ⟨(contains_create.1 hk).resolve_right hnot.1, hnot.2⟩
  have hkept : ∀ {k}, g.contains k → (g.create u .everywhere .ordinary).1.contains k := fun hk =>
    contains_create.2 (Or.inl hk)
  refine ⟨?_, ?_, ?_, ?_⟩
  · intro k i hk hord hnot hi
    rcases hold hk hnot with ⟨hk, hnot⟩
    rcases h.initialized hk hord hnot hi with ⟨m, hm, hunit⟩
    exact ⟨m, hkept hm, hunit⟩
  · intro m hm hcalls
    have hcalls := calls_create.1 hcalls
    rcases contains_create.1 hm with hm | rfl
    · rcases h.brought hm hcalls with ⟨k, hk⟩
      exact ⟨k, hkept hk.contains, hk.ordinary, hk.initializer, hk.next⟩
    · -- Nothing calls a number that has no node yet.
      exact absurd (hg.live_right hcalls) (not_live_size g)
  · intro k m hm hbrings hnot
    rcases hold hbrings.contains hnot with ⟨hk, hnot⟩
    rcases contains_create.1 hm with hm | rfl
    · refine calls_create.2 (h.linked hm ?_ hnot)
      exact ⟨hk, hbrings.ordinary, hbrings.initializer, hbrings.next⟩
    · -- A class that has the new unit for its initializer would have brought it before.
      rcases h.initialized hk hbrings.ordinary hnot hbrings.initializer with ⟨m, hm, hunit⟩
      have hfound := hg.lookup_of_everywhere heverywhere hm
      rw [hunit] at hfound
      exact absurd (hnew.symm.trans hfound) (by simp)
  · intro m hm hord hnot
    rcases hold hm hnot with ⟨hm, hnot⟩
    rcases h.descends hm hord hnot with ⟨k, hk, hlt, hcalls⟩
    exact ⟨k, hkept hk, hlt, calls_create.2 hcalls⟩

/-- An edit that adds no node and takes no call away keeps the nodes attached. What the fake
    world-clinit node calls has to be brought by a node. -/
theorem Attached.edit {g' : Graph} (h : Attached a fresh g)
    (hsame : ∀ {k}, g'.contains k ↔ g.contains k) (hkeeps : ∀ {i d}, g.Calls i d → g'.Calls i d)
    (hbrought : ∀ {m}, g.contains m → g'.Calls clinitId m.id →
      g.Calls clinitId m.id ∨ ∃ k, Brings a g k m) : Attached a fresh g' := by
  have hbrings : ∀ {k m}, Brings a g' k m ↔ Brings a g k m := brings_congr hsame
  refine ⟨?_, ?_, ?_, ?_⟩
  · intro k i hk hord hnot hi
    rcases h.initialized (hsame.1 hk) hord hnot hi with ⟨m, hm, hunit⟩
    exact ⟨m, hsame.2 hm, hunit⟩
  · -- What the fake world-clinit node calls now it called before, or a node has brought it.
    intro m hm hcalls
    have hm := hsame.1 hm
    have hcause : ∃ k, Brings a g k m := (hbrought hm hcalls).elim (h.brought hm) id
    rcases hcause with ⟨k, hk⟩
    exact ⟨k, hbrings.2 hk⟩
  · intro k m hm hk hnot
    exact hkeeps (h.linked (hsame.1 hm) (hbrings.1 hk) hnot)
  · intro m hm hord hnot
    rcases h.descends (hsame.1 hm) hord hnot with ⟨k, hk, hlt, hcalls⟩
    exact ⟨k, hsame.2 hk, hlt, hkeeps hcalls⟩

theorem Attached.recordSite (h : Attached a fresh g) (i : Int) (site : CallSite) :
    Attached a fresh (g.recordSite i site) :=
  h.edit (keeps_recordSite g i site).contains_iff calls_recordSite.2
    fun _ hcalls => Or.inl (calls_recordSite.1 hcalls)

/-- A call keeps the nodes attached. Only a call from the fake world-clinit node has to
    be accounted for. -/
theorem Attached.called (h : Attached a fresh g) (hn : g.contains n) (hm : g.contains m)
    (site : CallSite) (hbrings : n.id = clinitId → ∃ k, Brings a g k m) :
    Attached a fresh (g.called n site m) := by
  refine h.edit contains_called (fun hcalls => (calls_called hn).2 (Or.inl hcalls)) ?_
  intro m' hm' hcalls
  refine ((calls_called hn).1 hcalls).imp_right fun hcall => ?_
  rw [eq_of_contains hm' hm hcall.2]
  exact hbrings hcall.1.symm

/-- The initializer of the class of `k` is there, and it is linked if `k` brought it. -/
structure Provided (a : Answers) (g : Graph) (k : Node) : Prop where
  initialized : ∀ {i}, a.initializer k.unit = some i → ∃ m, g.contains m ∧ m.unit = i
  linked : ∀ {m}, g.contains m → Brings a g k m → g.Calls clinitId m.id

/-- A node stays provided for while others are called. -/
theorem Provided.called {k : Node} (h : Provided a g k) (hn : g.contains n) (site : CallSite) :
    Provided a (g.called n site m) k := by
  constructor
  · intro i hi
    rcases h.initialized hi with ⟨m', hm', hunit⟩
    exact ⟨m', contains_called.2 hm', hunit⟩
  · intro m' hm' hk
    refine (calls_called hn).2 (Or.inl (h.linked (contains_called.1 hm') ?_))
    exact (brings_congr contains_called).1 hk

/-- A fresh node is settled once it is provided for and an older node calls it. Nodes
    are settled in the opposite order of their making: the initializer before the node
    that brought it. -/
theorem Attached.settle {k : Node} (h : Attached a (k :: fresh) g) (hk : Provided a g k)
    (hcaller : ∃ j, g.contains j ∧ j.id < k.id ∧ g.Calls j.id k.id) : Attached a fresh g := by
  -- The node that is settled is the only one that is not fresh any more.
  have hother : ∀ {j}, j ≠ k → j ∉ fresh → j ∉ k :: fresh := fun hne hnot hmem =>
    (List.mem_cons.1 hmem).elim hne hnot
  refine ⟨?_, h.brought, ?_, ?_⟩
  · intro j i hj hord hnot hi
    by_cases heq : j = k
    · rw [heq] at hi
      exact hk.initialized hi
    · exact h.initialized hj hord (hother heq hnot) hi
  · intro j m hm hj hnot
    by_cases heq : j = k
    · rw [heq] at hj
      exact hk.linked hm hj
    · exact h.linked hm hj (hother heq hnot)
  · intro m hm hord hnot
    by_cases heq : m = k
    · rw [heq]
      exact hcaller
    · exact h.descends hm hord (hother heq hnot)

theorem id_bounds (hn : g.contains n) : 0 ≤ n.id ∧ n.id < g.slots.size := by
  rcases live_iff_exists.1 (live_of_contains hn) with ⟨s, hs⟩
  exact slot?_bounds hs

theorem id_le_create {u : CodeUnit} {c : Context} {k : NodeKind}
    (hm : (g.create u c k).1.contains m) : m.id ≤ (g.create u c k).2.id := by
  rcases contains_create.1 hm with hm | rfl
  · exact (id_bounds hm).2.le
  · exact le_rfl

/-- Every node is led to from a root. Going from a node to an older caller ends, and it
    ends at a root because every other node has an older caller. -/
theorem Attached.leadsTo (h : Attached a [] g) (hg : WellFormed g) (hm : g.contains m) :
    ∃ r, g.contains r ∧ r.kind ≠ .ordinary ∧ CallGraph.LeadsTo g r m := by
  -- Callers are older, so there are no more of them than the number of the node.
  induction hsize : m.id.toNat using Nat.strong_induction_on generalizing m with
  | _ size ih =>
      by_cases hord : m.kind = .ordinary
      · rcases h.descends hm hord List.not_mem_nil with ⟨k, hk, hlt, hcalls⟩
        have hbound := (id_bounds hk).1
        rcases ih k.id.toNat (by omega) hk rfl with ⟨r, hr, hkind, hpath⟩
        exact ⟨r, hr, hkind, hpath.tail (hg.mem_succs.2 ⟨hk, hm, hcalls⟩)⟩
      · exact ⟨m, hm, hord, .refl⟩

end Graph

/-! ## Moves -/

namespace Closure

open CallAtlas.Graph (clinitId Attached Brings Provided)

variable {σ : Type} {a : Answers} {h : Hierarchy σ} {only : Bool} {n : Node} {c c' : Closure Unit}

/-- A new node is the last, so it brought none. It is provided for if its initializer is there. -/
theorem provided_newNode {u : CodeUnit}
    (hinit : ∀ i, a.initializer u = some i → ∃ m, (c.newNode u).2.graph.contains m ∧ m.unit = i) :
    Provided a (c.newNode u).2.graph (c.newNode u).1 := by
  refine ⟨fun hi => hinit _ hi, fun {m} hm hbrings => ?_⟩
  have hle : m.id ≤ (c.newNode u).1.id := Graph.id_le_create hm
  have hnext := hbrings.next
  omega

/-- Linking the initializer of the node that was made last provides for that node. The
    initializer is the next node, so it counts as brought, and it is called at once. -/
theorem attached_linkInitializer (hc : Orderly h (some n) c) {k : Node} {i : CodeUnit}
    (hk : c.graph.contains k) (hord : k.kind = .ordinary) (hlast : k.id + 1 = c.graph.slots.size)
    (hi : a.initializer k.unit = some i) (hmentions : h.Mentions i)
    (hnew : c.graph.lookup i .everywhere = none) (hself : ∀ j, a.initializer i = some j → j = i)
    (hatt : Attached a [k] c.graph) :
    Attached a [k] (c.linkInitializer i).graph ∧ Provided a (c.linkInitializer i).graph k := by
  rw [linkInitializer_of_none hnew]
  let m := (c.newNode i).1
  let site : CallSite := { pc := c.initializers, target := i.ref, kind := .static }
  have hc₁ := (hc.newNode hnew hmentions).orderly
  have hk₁ : (c.newNode i).2.graph.contains k := Graph.contains_create.2 (Or.inl hk)
  have hm : (c.newNode i).2.graph.contains m := Graph.contains_create.2 (Or.inr rfl)
  have hclinit : (c.newNode i).2.graph.contains c.clinitNode :=
    Graph.contains_iff.2 hc₁.wellFormed.clinit
  have hlinked : ((c.newNode i).2.graph.called c.clinitNode site m).Calls clinitId m.id :=
    (Graph.calls_called hclinit).2 (Or.inr ⟨rfl, rfl⟩)
  have hbrings : Brings a (c.newNode i).2.graph k m := ⟨hk₁, hord, hi, hlast.symm⟩
  -- The initializer of the initializer is there already.
  have hprovided : Provided a (c.newNode i).2.graph m := provided_newNode fun j hj =>
    ⟨m, hm, (hself j hj).symm⟩
  have hatt₁ : Attached a [m, k] (c.newNode i).2.graph :=
    hatt.create hc.wellFormed hc.everywhere hnew
  have hatt₂ := hatt₁.called hclinit hm site fun _ => ⟨k, hbrings⟩
  refine ⟨hatt₂.settle (hprovided.called hclinit site) ?_, ?_, ?_⟩
  · refine ⟨c.clinitNode, Graph.contains_called.2 hclinit, ?_, hlinked⟩
    exact (Graph.id_bounds (Graph.contains_iff.2 hc.wellFormed.clinit)).2
  · intro j hj
    have hij : i = j := Option.some.inj (hi.symm.trans hj)
    exact ⟨m, Graph.contains_called.2 hm, hij⟩
  · -- Only one node has the number that follows.
    intro j hj hjbrings
    rw [Graph.eq_of_contains (Graph.contains_called.1 hj) hm (hjbrings.next.trans hlast)]
    exact hlinked

section Pure

-- The hierarchy answers the same each time, and the initializer of an initializer is nothing
-- new.
variable (ha : a.GivenBy h)
  (hchain : ∀ {u i j}, a.initializer u = some i → a.initializer i = some j → j = i)
include ha hchain

/-- A node that was found is attached once it is called. Until then it is fresh, and
    this is why finding and calling make up one move. -/
theorem attached_call (hc : Orderly h (some n) c) (hatt : Attached a [] c.graph) (site : CallSite)
    {m : Node} (hfound : Found h c m c') : Attached a [] (c'.graph.called n site m) := by
  rcases hc.found hfound with ⟨hproc, hm⟩
  have hn := (hproc.orderly.busy_node rfl).1
  have hfree : n.id = clinitId → ∃ k, Brings a c'.graph k m := fun hid => absurd hid hc.busy_id
  -- What is left to show is that a new node is provided for.
  have hnew : ∀ {u}, m = (c.newNode u).1 → Attached a [m] c'.graph ∧ Provided a c'.graph m →
      Attached a [] (c'.graph.called n site m) := by
    intro u hmade hfresh
    refine (hfresh.1.called hn hm site hfree).settle (hfresh.2.called hn site)
      ⟨n, Graph.contains_called.2 hn, ?_, (Graph.calls_called hn).2 (Or.inr ⟨rfl, rfl⟩)⟩
    rw [hmade]
    exact (Graph.id_bounds (hc.busy_node rfl).1).2
  cases hfound with
  | known hl hu => exact hatt.called hn hm site hfree
  | @alone u w hl hu hi =>
      rw [ha.initializer] at hi
      have hatt₁ := hatt.create hc.wellFormed hc.everywhere hl
      exact hnew rfl ⟨hatt₁, provided_newNode fun j hj => absurd (hi.symm.trans hj) (by simp)⟩
  | @initialized u i w hl hu hi =>
      have hmentions : h.Mentions i := .initializer w hi
      rw [ha.initializer] at hi
      have hc₁ := (hc.newNode hl hu).orderly
      have hatt₁ := hatt.create hc.wellFormed hc.everywhere hl
      have hmade : (c.newNode u).2.graph.contains (c.newNode u).1 :=
        Graph.contains_create.2 (Or.inr rfl)
      cases hlookup : (c.newNode u).2.graph.lookup i .everywhere with
      | none =>
          refine hnew rfl (attached_linkInitializer hc₁ hmade rfl ?_ hi hmentions hlookup
            (fun j => hchain hi) hatt₁)
          change (c.graph.slots.size : Int) + 1 = (c.graph.slots.push _).size
          rw [Array.size_push]
          rfl
      | some k =>
          -- The initializer was met before, so nothing is linked.
          rw [linkInitializer_of_some hlookup] at hnew ⊢
          refine hnew rfl ⟨hatt₁, provided_newNode fun j hj => ?_⟩
          rcases hc₁.wellFormed.lookup_eq_some_iff.1 hlookup with ⟨hk, hunit, _⟩
          have hij : i = j := Option.some.inj (hi.symm.trans hj)
          exact ⟨k, Graph.contains_iff.2 hk, hunit.trans hij⟩

theorem attached_move (hc : Orderly h (some n) c) (hmove : Move h n c c')
    (hatt : Attached a [] c.graph) : Attached a [] c'.graph := by
  cases hmove with
  | record site => exact hatt.recordSite n.id site
  | call site hfound => exact attached_call ha hchain hc hatt site hfound

/-! ## Runs -/

theorem attached_advance {c : Closure σ} (hc : Orderly h none c.bare) (hcached : Cached h c)
    (hatt : Attached a [] c.graph) (k : Nat) : Attached a [] (advance h only k c).graph :=
  hc.advance_keeps (P := fun g _ => Attached a [] g) (attached_move ha hchain) hcached hatt only k

end Pure

/-- At the start there is no ordinary node to be attached. -/
theorem attached_start (world : σ) (serial : Nat) (entries : List CodeUnit) :
    Attached a [] (start world serial entries).graph := by
  have hsame : ∀ {k}, (start world serial entries).graph.contains k ↔
      (Graph.fresh serial).contains k := by
    rw [graph_start]
    exact (Graph.keeps_recordSites Graph.rootId _ _).contains_iff
  have hnone : ∀ {k}, (start world serial entries).graph.contains k → k.kind ≠ .ordinary := fun hk =>
    not_ordinary_fresh (hsame.1 hk)
  exact ⟨fun hk hord => absurd hord (hnone hk), fun _ hcalls => absurd hcalls not_calls_start,
    fun _ hbrings => absurd hbrings.ordinary (hnone hbrings.contains),
    fun hm hord => absurd hord (hnone hm)⟩

/-- What becomes of the initializer of a unit's class. Whenever a run ends, and whatever
    it was asked for, the initializer has a node that is led to from a root. The fake
    world-clinit node calls it if a unit of its class came first.

    Nothing calls it from there if it had a node already when its class was met, for
    example as an entrypoint. It is reached all the same, from whatever gave it its
    node. -/
theorem build_attaches (ha : a.GivenBy h)
    (hchain : ∀ {u i j}, a.initializer u = some i → a.initializer i = some j → j = i)
    (world : σ) (serial : Nat) (only : Bool) (entries : List CodeUnit) (life : Lifetime) :
    let g := (build h world serial only entries life).1.graph
    ∀ n i clinit, g.contains n → n.kind = .ordinary → a.initializer n.unit = some i →
      g.contains clinit → clinit.kind = .fakeWorldClinit →
      ∃ m, g.lookup i .everywhere = some m ∧
        -- The initializer is linked if its node was made right after one of its class.
        (g.hasEdge clinit m ↔ ∃ k, g.contains k ∧ k.kind = .ordinary ∧
          a.initializer k.unit = some i ∧ m.id = k.id + 1) ∧
        -- If it is not linked, a node that was there before calls it.
        (m.kind = .ordinary → ¬g.hasEdge clinit m →
          ∃ k, k ≠ clinit ∧ k.id < m.id ∧ g.hasEdge k m) ∧
        ∃ r, g.contains r ∧ r.kind ≠ .ordinary ∧ CallGraph.LeadsTo g r m := by
  intro g n i clinit hn hord hi hclinit hkind
  have hstart := orderly_start h world serial entries
  have hcached := cached_start h world serial entries
  rcases exists_run_eq_advance h only (h.bound + 1) life (start world serial entries) with ⟨j, hj⟩
  have hj : g = (advance h only j (start world serial entries)).graph := congrArg Closure.graph hj
  have horder := (hstart.advance hcached only j).1
  have hatt : Attached a [] g := by
    rw [hj]
    exact attached_advance ha hchain hstart hcached (attached_start world serial entries) j
  have hwf : g.WellFormed := by
    rw [hj]
    exact horder.wellFormed
  have heverywhere : ∀ {k}, g.contains k → k.context = .everywhere := by
    rw [hj]
    exact horder.everywhere
  rcases hatt.initialized hn hord List.not_mem_nil hi with ⟨m, hm, hunit⟩
  have hid : clinit.id = clinitId := (hwf.kind_eq_fakeWorldClinit_iff hclinit).1 hkind
  have hedge : g.hasEdge clinit m ↔ g.Calls clinitId m.id := by
    rw [Graph.hasEdge_iff, hid]
    exact ⟨fun h => h.2.2, fun h => ⟨hclinit, hm, h⟩⟩
  refine ⟨m, ?_, ?_, ?_, hatt.leadsTo hwf hm⟩
  · rw [← hunit]
    exact hwf.lookup_of_everywhere heverywhere hm
  · rw [hedge, ← hunit]
    constructor
    · intro hcalls
      rcases hatt.brought hm hcalls with ⟨k, hk⟩
      exact ⟨k, hk.contains, hk.ordinary, hk.initializer, hk.next⟩
    · rintro ⟨k, hk, hkord, hki, hnext⟩
      exact hatt.linked hm ⟨hk, hkord, hki, hnext⟩ List.not_mem_nil
  · -- Every ordinary node has an older caller, and here it is not the fake world-clinit node.
    intro hmord hnot
    rcases hatt.descends hm hmord List.not_mem_nil with ⟨k, hk, hlt, hcalls⟩
    refine ⟨k, ?_, hlt, Graph.hasEdge_iff.2 ⟨hk, hm, hcalls⟩⟩
    rintro rfl
    exact hnot (Graph.hasEdge_iff.2 ⟨hk, hm, hcalls⟩)

/-! ## An initializer that is an entrypoint -/

/-- A class with a method and an initializer. -/
def registry : Answers where
  single r :=
    if r = ⟨"Registry", "get", "()"⟩ ∨ r = ⟨"Registry", "init", "()"⟩ then some (.named r) else none
  overrides _ := []
  isAbstract _ := false
  loader _ := .application
  initializer u :=
    if u.ref.owner = "Registry" then some (.named ⟨"Registry", "init", "()"⟩) else none
  callSites _ := []
  wrapper _ _ := none

theorem registry_chain {u i j : CodeUnit} (hi : registry.initializer u = some i)
    (hj : registry.initializer i = some j) : j = i := by
  simp only [registry, Option.ite_none_right_eq_some, Option.some.injEq] at hi hj
  rw [← hi.2, ← hj.2]

theorem registry_admissible : registry.Admissible 2 := by
  let all : Finset CodeUnit :=
    {.named ⟨"Registry", "get", "()"⟩, .named ⟨"Registry", "init", "()"⟩}
  have hall : ∀ {u}, registry.Mentions u → u ∈ all := by
    intro u hu
    cases hu with
    | single hu =>
        simp only [registry, Option.ite_none_right_eq_some, Option.some.injEq] at hu
        rcases hu with ⟨rfl | rfl, rfl⟩ <;> decide
    | overrides hu => exact absurd hu List.not_mem_nil
    | initializer hu =>
        simp only [registry, Option.ite_none_right_eq_some, Option.some.injEq] at hu
        rcases hu with ⟨_, rfl⟩
        decide
    | wrapper hu => exact absurd hu (by simp [registry])
  -- That an initializer has no other one was shown above.
  exact Answers.admissible_of_finset all hall (by decide) (by decide) registry_chain

/-- Whether an initializer is linked depends on the order of the entrypoints. If it is the
    first of its class, the fake world-clinit node does not call it. -/
theorem entered_before_class :
    let get : CodeUnit := .named ⟨"Registry", "get", "()"⟩
    let init : CodeUnit := .named ⟨"Registry", "init", "()"⟩
    let graph (entries : List CodeUnit) :=
      (build (registry.hierarchy 2) () 0 false entries .unbounded).1.graph
    let units (g : Graph) := (g.nodes.filter fun n => n.kind = .ordinary).map Node.unit
    let linked (g : Graph) := ∃ clinit ∈ g.nodes, ∃ m ∈ g.nodes,
      clinit.kind = .fakeWorldClinit ∧ m.unit = init ∧ g.hasEdge clinit m
    registry.Admissible 2 ∧ registry.initializer get = some init ∧
    (units (graph [get, init]) = [get, init] ∧ linked (graph [get, init])) ∧
    (units (graph [init, get]) = [init, get] ∧ ¬linked (graph [init, get])) :=
  ⟨registry_admissible, by decide, by decide +kernel, by decide +kernel⟩

/-- The initializer that is not linked is called by the root, as the entrypoint that it is. -/
theorem build_attaches_registry :
    let init : CodeUnit := .named ⟨"Registry", "init", "()"⟩
    let get : Node := ⟨0, 3, .named ⟨"Registry", "get", "()"⟩, .everywhere, .ordinary⟩
    let clinit : Node := ⟨0, 1, .fakeWorldClinit, .everywhere, .fakeWorldClinit⟩
    let g := (build (registry.hierarchy 2) () 0 false [init, get.unit] .unbounded).1.graph
    (g.contains get ∧ registry.initializer get.unit = some init ∧ g.contains clinit) ∧
    ∃ m, g.lookup init .everywhere = some m ∧ ¬g.hasEdge clinit m ∧
      (∃ k, k ≠ clinit ∧ k.id < m.id ∧ g.hasEdge k m) ∧
      ∃ r, g.contains r ∧ r.kind ≠ .ordinary ∧ CallGraph.LeadsTo g r m := by
  intro init get clinit g
  have hget : g.contains get := by decide +kernel
  have hclinit : g.contains clinit := by decide +kernel
  have hinit : registry.initializer get.unit = some init := by decide
  let made : Node := ⟨0, 2, init, .everywhere, .ordinary⟩
  have hmade : g.lookup init .everywhere = some made := by decide +kernel
  have hnot : ¬g.hasEdge clinit made := by decide +kernel
  rcases build_attaches (registry.givenBy_hierarchy 2) registry_chain () 0 false
    [init, get.unit] .unbounded get init clinit hget rfl hinit hclinit rfl with ⟨m, hm, _, hcalled, hled⟩
  obtain rfl : made = m := Option.some.inj (hmade.symm.trans hm)
  exact ⟨⟨hget, hinit, hclinit⟩, made, hmade, hnot, hcalled rfl hnot, hled⟩

end Closure

end CallAtlas
