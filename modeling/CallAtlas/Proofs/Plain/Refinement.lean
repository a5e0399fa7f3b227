import CallAtlas.Proofs.Growth
import CallAtlas.Proofs.Plain.Model
import CallAtlas.Proofs.Prune.Views

/-!
# The Stored Graph Refines the Plain One

The stored graph and the plain one take the same edits. `Graph.Refines` says how their
states correspond, part by part, and leaves out everything that the stored graph keeps
for speed. Nothing is lost by that: in a well-formed graph the indexes, callers and
counters follow from the parts that are compared.

The argument has two halves. An edit is refused by both graphs for the same reason or
accepted by both, and then the graphs correspond again. And graphs that correspond
give the same answers. Only the first half looks at edits and only the second at
questions.

Refusals and results are carried along together by `Matches`, which relates two
outcomes and composes along a sequence of checks. Otherwise every edit would need one
argument for being accepted and another for each reason to refuse it.

## Main definitions

* `Matches`: Two outcomes are the same refusal or related results.
* `Graph.Refines`: A stored graph corresponds to a plain one.

## Theorems

* `Graph.Refines.attempt`: Graphs that correspond treat an edit alike.
* `Graph.Refines.afterAll`: Graphs that correspond do so after any edits.
* `Graph.Refines.agree`: Graphs that correspond give the same answers.
* `Graph.agree_plain`: The stored graph refines the plain one.
-/

namespace CallAtlas

/-- Two outcomes are the same refusal or related results. -/
inductive Matches {α β : Type} (R : α → β → Prop) :
    Except GraphError α → Except GraphError β → Prop
  | ok {a : α} {b : β} (h : R a b) : Matches R (.ok a) (.ok b)
  | error (err : GraphError) : Matches R (.error err) (.error err)

namespace Matches

variable {α β α' β' : Type} {R : α → β → Prop} {S : α' → β' → Prop}

/-- Outcomes match step by step. A refusal ends both computations, and what one hands on
    is related to what the other does. -/
theorem bind {x : Except GraphError α} {y : Except GraphError β} {f : α → Except GraphError α'}
    {f' : β → Except GraphError β'} (h : Matches R x y)
    (hf : ∀ a b, R a b → Matches S (f a) (f' b)) : Matches S (x >>= f) (y >>= f') := by
  cases h with
  | ok hab => exact hf _ _ hab
  | error err => exact .error err

theorem map {x : Except GraphError α} {y : Except GraphError β} {f : α → α'} {f' : β → β'}
    (h : Matches R x y) (hf : ∀ a b, R a b → S (f a) (f' b)) : Matches S (x.map f) (y.map f') := by
  cases h with
  | ok hab => exact .ok (hf _ _ hab)
  | error err => exact .error err

theorem error_iff {x : Except GraphError α} {y : Except GraphError β} (h : Matches R x y)
    (err : GraphError) : x = .error err ↔ y = .error err := by
  cases h with
  | ok _ => simp
  | error err' => simp

theorem eq {x y : Except GraphError α} (h : Matches Eq x y) : x = y := by
  cases h with
  | ok hab => rw [hab]
  | error err => rfl

end Matches

/-- If at most one member passes a test, then a search finds exactly that one. -/
theorem find?_eq_some_iff_of_unique {l : List Node} {q : Node → Bool}
    (hq : ∀ a ∈ l, ∀ b ∈ l, q a → q b → a = b) {n : Node} :
    l.find? q = some n ↔ n ∈ l ∧ q n := by
  constructor
  · intro h
    exact ⟨List.mem_of_find?_eq_some h, List.find?_some h⟩
  · rintro ⟨hn, hqn⟩
    rcases Option.isSome_iff_exists.1 (List.find?_isSome.2 ⟨n, hn, hqn⟩) with ⟨m, hm⟩
    rw [hm, hq m (List.mem_of_find?_eq_some hm) n hn (List.find?_some hm) hqn]

/-- Pairs that have one end in common are as many as their other ends. The stored graph
    keeps the ends in the slot of the node, and the plain graph finds the pairs by
    searching all edges. -/
theorem card_filter_edges {edges : Finset (Int × Int)} {q : Int × Int → Prop} [DecidablePred q]
    {pair : Int → Int × Int} (hpair : Function.Injective pair) {ends : IdSet}
    (h : ∀ e, e ∈ edges ∧ q e ↔ ∃ i ∈ ends, pair i = e) : (edges.filter q).card = ends.size := by
  have hset : (edges.filter q : Set (Int × Int)) = pair '' {i | i ∈ ends} := by
    ext e
    rw [Finset.mem_coe, Finset.mem_filter, h]
    rfl
  rw [← Set.ncard_coe_finset, hset, Set.ncard_image_of_injective _ hpair, IdSet.ncard_members]

namespace Graph

/-- A stored graph corresponds to a plain one. Nothing is said about the indexes, the
    counters or the set of entrypoints, because the plain graph has none of these. They
    are covered by well-formedness, which the lemmas below assume beside the
    correspondence. -/
structure Refines (g : Graph) (p : PlainGraph) : Prop where
  serial_eq : p.serial = g.serial
  length_eq : p.rows.length = g.slots.size
  live_eq : p.live = g.nodes
  mem_edges : ∀ {a b}, (a, b) ∈ p.edges ↔ g.Calls a b
  mem_triples : ∀ {i site d}, (i, site, d) ∈ p.triples ↔ g.Attributes i site d
  sitesOf_eq : ∀ {n}, n ∈ p.live → p.sitesOf n = g.sitesAt n.id
  entrypoints_eq : p.entrypoints.toList = g.entrypoints
  frozen_eq : p.frozen = g.frozen

variable {g g' : Graph} {p p' : PlainGraph}

namespace Refines

theorem mem_live (h : Refines g p) (hg : Numbered g) {n : Node} : n ∈ p.live ↔ g.contains n := by
  rw [h.live_eq, hg.contains_iff_mem_nodes]

theorem invokes_iff (h : Refines g p) (hg : Numbered g) {a b : Node} {site : CallSite} :
    p.invokes a site b ↔ b ∈ g.targets a site := by
  rw [PlainGraph.invokes, decide_eq_true_iff, h.mem_live hg, h.mem_live hg, h.mem_triples,
    hg.mem_targets]

/-! ## Same answers -/

/-- The plain graph searches the list of nodes for a number, and the stored graph goes
    to its slot. They find the same node because no two nodes have the same number. -/
theorem node?_eq (h : Refines g p) (hg : WellFormed g) (i : Int) : p.node? i = g.node? i := by
  have hlaw := hg.lawful
  refine Option.ext fun n => ?_
  rw [PlainGraph.node?, h.live_eq, find?_eq_some_iff_of_unique, decide_eq_true_iff]
  · exact hlaw.node?_eq_some_iff.symm
  · intro a ha b hb hai hbi
    rw [decide_eq_true_iff] at hai hbi
    exact hlaw.eq_of_id ha hb (hai.trans hbi.symm)

/-- The plain graph searches the list of nodes for a pair, and the stored graph asks its index. -/
theorem lookup_eq (h : Refines g p) (hg : WellFormed g) (u : CodeUnit) (c : Context) :
    p.lookup u c = g.lookup u c := by
  have hlaw := hg.lawful
  refine Option.ext fun n => ?_
  rw [PlainGraph.lookup, h.live_eq, find?_eq_some_iff_of_unique, decide_eq_true_iff]
  · exact hlaw.lookup_eq_some_iff.symm
  · -- The stored graph finds both nodes under the same pair.
    intro a ha b hb hau hbu
    have hfa := hlaw.lookup_eq_some_iff.2 ⟨ha, decide_eq_true_iff.1 hau⟩
    rw [hlaw.lookup_eq_some_iff.2 ⟨hb, decide_eq_true_iff.1 hbu⟩, Option.some.injEq] at hfa
    exact hfa.symm

theorem hasEdge_eq (h : Refines g p) (hg : Numbered g) (a b : Node) :
    p.hasEdge a b = g.hasEdge a b := by
  rw [Bool.eq_iff_iff, PlainGraph.hasEdge, decide_eq_true_iff, hasEdge_iff, h.mem_live hg,
    h.mem_live hg, h.mem_edges]

theorem callSites_eq (h : Refines g p) (hg : Numbered g) (n : Node) :
    p.sitesOf n = g.callSites n := by
  by_cases hn : n ∈ p.live
  · rw [h.sitesOf_eq hn, Graph.callSites_eq ((h.mem_live hg).1 hn)]
  · rw [PlainGraph.sitesOf_of_not_mem hn, callSites_of_not_contains fun hc => hn ((h.mem_live hg).2 hc)]

/-- The edges of the plain graph are counted by the second counter. -/
theorem card_edges (h : Refines g p) (hg : WellFormed g) : g.edges = p.edges.card := by
  have hset : g.edgeSet = (p.edges : Set (Int × Int)) := by
    ext ⟨a, b⟩
    exact h.mem_edges.symm
  rw [hg.edges_eq, hset, Set.ncard_coe_finset]

/-- The stored graph has the callees of a node in a slot, and the plain graph counts the
    pairs that start at the node. -/
theorem succCount_eq (h : Refines g p) (hg : WellFormed g) (n : Node) :
    CallGraph.succCount p n = g.succCount n := by
  change (if n ∈ p.live then _ else 0) = _
  simp only [h.mem_live hg.toNumbered, Graph.succCount, contains]
  cases hs : g.slotOf? n with
  | none => rfl
  | some s =>
      -- A pair that starts at the node is determined by the callee.
      refine card_filter_edges (Prod.mk_right_injective n.id) ?_
      rintro ⟨a, d⟩
      rw [h.mem_edges]
      constructor
      · rintro ⟨hcall, rfl⟩
        exact ⟨d, (calls_iff_mem_succs (slotOf?_eq_some_iff.1 hs).1).1 hcall, rfl⟩
      · rintro ⟨_, hd, hpair⟩
        cases hpair
        exact ⟨(calls_iff_mem_succs (slotOf?_eq_some_iff.1 hs).1).2 hd, rfl⟩

/-- Counting callers is counting callees with the ends exchanged. -/
theorem predCount_eq (h : Refines g p) (hg : WellFormed g) (n : Node) :
    CallGraph.predCount p n = g.predCount n := by
  change (if n ∈ p.live then _ else 0) = _
  simp only [h.mem_live hg.toNumbered, Graph.predCount, contains]
  cases hs : g.slotOf? n with
  | none => rfl
  | some s =>
      refine card_filter_edges (Prod.mk_left_injective n.id) ?_
      rintro ⟨a, d⟩
      -- The plain graph has no callers of its own; mirroring supplies them.
      rw [h.mem_edges, hg.calls_iff]
      constructor
      · rintro ⟨hcall, rfl⟩
        exact ⟨a, (calledBy_iff_mem_preds (slotOf?_eq_some_iff.1 hs).1).1 hcall, rfl⟩
      · rintro ⟨_, ha, hpair⟩
        cases hpair
        exact ⟨(calledBy_iff_mem_preds (slotOf?_eq_some_iff.1 hs).1).2 ha, rfl⟩

/-- Graphs that correspond give the same answers. Lists of nodes are compared by their
    members, since both graphs list nodes by ascending number. -/
theorem agree (h : Refines g p) (hg : WellFormed g) : CallGraph.Agree g p := by
  have hlaw := hg.lawful
  have hedge : ∀ a b, g.hasEdge a b = p.hasEdge a b := fun a b =>
    (h.hasEdge_eq hg.toNumbered a b).symm
  refine ⟨(h.node?_eq hg 0).symm, (h.node?_eq hg 1).symm, ?_, fun i => (h.node?_eq hg i).symm,
    fun u c => (h.lookup_eq hg u c).symm, ?_, h.live_eq.symm, ?_, ?_, ?_, ?_, ?_,
    fun n => (h.succCount_eq hg n).symm, fun n => (h.predCount_eq hg n).symm, hedge,
    fun n => (h.callSites_eq hg.toNumbered n).symm, ?_, ?_⟩
  · change g.entrypoints.filterMap g.node? = p.entrypoints.toList.filterMap p.node?
    rw [h.entrypoints_eq, funext (h.node?_eq hg)]
  · -- The plain graph has no index and looks through its nodes.
    intro u
    rw [hlaw.nodesOf_eq]
    exact congrArg _ h.live_eq.symm
  · rw [hlaw.nodeCount_eq]
    exact congrArg (fun l : List Node => (l.length : Int)) h.live_eq.symm
  · change (g.slots.size : Int) - 1 = (p.rows.length : Int) - 1
    rw [h.length_eq]
  · intro n
    rw [Bool.eq_iff_iff]
    change g.contains n ↔ decide (n ∈ p.live) = true
    rw [decide_eq_true_iff, h.mem_live hg.toNumbered]
  · -- Callees are stored by the one graph and searched for by the other.
    intro n
    rw [hlaw.succs_eq]
    change g.nodes.filter (g.hasEdge n) = p.live.filter fun m => p.hasEdge n m
    rw [h.live_eq, funext (hedge n)]
  · intro n
    rw [hlaw.preds_eq]
    change (g.nodes.filter fun m => g.hasEdge m n) = p.live.filter fun m => p.hasEdge m n
    rw [h.live_eq]
    exact List.filter_congr fun m _ => hedge m n
  · intro n site
    change g.targets n site = p.live.filter fun m => p.invokes n site m
    rw [h.live_eq]
    -- Both lists of targets ascend, so it is enough to compare their members.
    refine eq_of_ascending (hg.targets_ascending n site) (hg.nodes_ascending.filter _) fun m => ?_
    rw [List.mem_filter, h.invokes_iff hg.toNumbered]
    exact ⟨fun hm => ⟨(hg.target_edge hm).2.1, hm⟩, fun hm => hm.2⟩
  · intro a b
    change g.sitesBetween a b = (p.sitesOf a).filter fun site => p.invokes a site b
    rw [hg.sitesBetween_eq, h.callSites_eq hg.toNumbered]
    refine List.filter_congr fun site _ => ?_
    rw [Bool.eq_iff_iff, decide_eq_true_iff, h.invokes_iff hg.toNumbered]

/-! ## Same edits -/

/-- A new node corresponds to a new row. The number is the same because the rows are as
    many as the slots. -/
theorem create (h : Refines g p) (hg : Numbered g) (u : CodeUnit) (c : Context) (k : NodeKind) :
    Refines (g.create u c k).1 (p.add u c k).1 ∧ (g.create u c k).2 = (p.add u c k).2 := by
  have hnode : (g.create u c k).2 = (p.add u c k).2 := by
    simp only [Graph.create, PlainGraph.add, h.serial_eq, h.length_eq]
  have hlive : (p.add u c k).1.live = (g.create u c k).1.nodes := by
    rw [PlainGraph.live_add, nodes_create, h.live_eq, hnode]
  refine ⟨⟨h.serial_eq, ?_, hlive, ?_, ?_, ?_, h.entrypoints_eq, h.frozen_eq⟩, hnode⟩
  · simp [PlainGraph.add, Graph.create, h.length_eq]
  · exact h.mem_edges.trans calls_create.symm
  · exact h.mem_triples.trans attributes_create.symm
  · intro n hn
    rw [PlainGraph.live_add, List.mem_append, List.mem_singleton] at hn
    rw [PlainGraph.sitesOf_add, sitesAt_create]
    rcases hn with hold | hnew
    · exact h.sitesOf_eq hold
    · -- The node is new on both sides, and neither has recorded a site for it.
      have hout : n ∉ p.live := by
        rw [h.mem_live hg, hnew, ← hnode]
        exact not_contains_create g u c k
      have hid : n.id = g.slots.size := by
        rw [hnew, ← hnode]
        rfl
      rw [PlainGraph.sitesOf_of_not_mem hout, hid, sitesAt_size]

/-- The graphs before their first edit. Both are made from nothing by adding the two roots. -/
theorem fresh (serial : Nat) : Refines (fresh serial) (PlainGraph.fresh serial) := by
  have hslot : ∀ i, ({ serial } : Graph).slot? i = none := slot?_bare serial
  have hbare : Refines { serial } { serial } := by
    refine ⟨rfl, rfl, rfl, ?_, ?_, fun hn => ?_, rfl, rfl⟩
    · simp [Calls, hslot]
    · simp [Attributes, hslot]
    · cases hn
  have hnumbered : Numbered { serial } :=
    ⟨by simp [Graph.node?, hslot], by simp [Graph.node?, hslot]⟩
  exact ((hbare.create hnumbered _ _ _).1.create (hnumbered.create _ _ _) _ _ _).1

/-- For an edit that leaves the nodes alone, edges, triples and sites are left to
    compare. -/
theorem of_keeps (h : Refines g p) (hg : WellFormed g) (hg' : WellFormed g') (hk : Keeps g g')
    (hserial : p'.serial = p.serial) (hrows : p'.rows.length = p.rows.length)
    (hlive : p'.live = p.live) (hentry : p'.entrypoints = p.entrypoints)
    (hfrozen : p'.frozen = p.frozen)
    (hedges : ∀ {a b}, (a, b) ∈ p'.edges ↔ g'.Calls a b)
    (htriples : ∀ {i site d}, (i, site, d) ∈ p'.triples ↔ g'.Attributes i site d)
    (hsites : ∀ {n}, n ∈ p.live → p'.sitesOf n = g'.sitesAt n.id) : Refines g' p' where
  serial_eq := by rw [hserial, h.serial_eq, hk.serial]
  length_eq := by rw [hrows, h.length_eq, hk.size]
  live_eq := by rw [hlive, h.live_eq, hk.nodes_eq hg hg']
  mem_edges := hedges
  mem_triples := htriples
  sitesOf_eq hn := hsites (by rw [← hlive]; exact hn)
  entrypoints_eq := by rw [hentry, h.entrypoints_eq, hk.entrypoints]
  frozen_eq := by rw [hfrozen, h.frozen_eq, hk.frozen]

/-- Adding an edge that is there changes neither graph: the stored one looks first, and
    the plain one inserts into a set. -/
theorem link (h : Refines g p) (hg : WellFormed g) {a b : Node} (ha : g.Live a.id)
    (hb : g.Live b.id) :
    Refines (g.link a.id b.id) { p with edges := insert (a.id, b.id) p.edges } := by
  refine h.of_keeps hg (hg.link ha hb) (keeps_link g _ _) rfl rfl rfl rfl rfl ?_ ?_ ?_
  · intro i j
    rw [Finset.mem_insert, h.mem_edges, calls_link ha, Prod.mk.injEq, or_comm]
  · exact h.mem_triples.trans (attributes_link ha).symm
  · intro n hn
    rw [sitesAt_link ha]
    exact h.sitesOf_eq hn

/-- What recording does to the sites, for both edits that record one. -/
theorem sitesOf_record (h : Refines g p) (hg : Numbered g) {n : Node} (hn : g.contains n)
    (site : CallSite) {m : Node} (hm : m ∈ p.live) :
    (p.record n site).sitesOf m =
      if m.id = n.id ∧ site ∉ g.sitesAt n.id then g.sitesAt m.id ++ [site] else g.sitesAt m.id := by
  have hlive := (h.mem_live hg).2 hn
  -- Rows are found by nodes and slots by numbers, which is the same among nodes of the graph.
  have hid : m = n ↔ m.id = n.id := by
    refine ⟨fun hmn => by rw [hmn], eq_of_contains ((h.mem_live hg).1 hm) hn⟩
  simp only [PlainGraph.sitesOf_record hlive, h.sitesOf_eq hlive, h.sitesOf_eq hm, hid]

/-- Recording a site corresponds to entering it in a row. -/
theorem recordSite (h : Refines g p) (hg : WellFormed g) {n : Node} (hn : g.contains n)
    (site : CallSite) : Refines (g.recordSite n.id site) (p.record n site) := by
  refine h.of_keeps hg (hg.recordSite _ site) (keeps_recordSite g _ site) rfl ?_
    (PlainGraph.live_record p n site) rfl rfl ?_ ?_ ?_
  · exact List.length_map _
  · exact h.mem_edges.trans calls_recordSite.symm
  · exact h.mem_triples.trans attributes_recordSite.symm
  · intro m hm
    rw [h.sitesOf_record hg.toNumbered hn site hm,
      sitesAt_recordSite hg.toAttributed (live_of_contains hn)]

/-- A call corresponds to recording its site and inserting a pair and a triple. -/
theorem call (h : Refines g p) (hg : WellFormed g) {a b : Node} (ha : g.contains a)
    (hb : g.contains b) (site : CallSite) :
    Refines ((g.addTarget a.id site b.id).link a.id b.id)
      { p.record a site with
        edges := insert (a.id, b.id) p.edges
        triples := insert (a.id, site, b.id) p.triples } := by
  have hsrc := live_of_contains ha
  refine h.of_keeps hg (hg.call hsrc (live_of_contains hb) site) (keeps_call g _ site _) rfl ?_
    (PlainGraph.live_record p a site) rfl rfl ?_ ?_ ?_
  · exact List.length_map _
  · -- The stored sets and the plain ones grow by the same pair and the same triple.
    intro i j
    rw [Finset.mem_insert, h.mem_edges, calls_call hsrc, Prod.mk.injEq, or_comm]
  · intro i site' d
    rw [Finset.mem_insert, h.mem_triples, attributes_call hsrc, Prod.mk.injEq, Prod.mk.injEq,
      or_comm]
  · intro m hm
    rw [sitesAt_call hg.toAttributed hsrc, ← h.sitesOf_record hg.toNumbered ha site hm]
    rfl

/-- Registering an entrypoint corresponds to entering it in the list. The stored graph
    tests a set that has the members of the list. -/
theorem markEntrypoint (h : Refines g p) (hg : WellFormed g) (i : Int) :
    Refines (g.markEntrypoint i) { p with entrypoints := p.entrypoints.enter i } := by
  refine ⟨?_, ?_, ?_, ?_, ?_, ?_, ?_, ?_⟩
  · rw [serial_markEntrypoint]
    exact h.serial_eq
  · rw [slots_markEntrypoint]
    exact h.length_eq
  · rw [nodes, slots_markEntrypoint]
    exact h.live_eq
  · exact h.mem_edges.trans calls_markEntrypoint.symm
  · exact h.mem_triples.trans attributes_markEntrypoint.symm
  · intro n hn
    rw [sitesAt_markEntrypoint]
    exact h.sitesOf_eq hn
  · -- The stored graph asks a set whether the number is entered, and the plain one its list.
    change (p.entrypoints.enter i).toList = _
    rw [Roll.toList_enter, h.entrypoints_eq, Graph.markEntrypoint]
    simp only [hg.mem_entrySet]
    split <;> rfl
  · rw [frozen_markEntrypoint]
    exact h.frozen_eq

/-- Removing an edge corresponds to deleting its pair and its triples. The stored graph
    does not search for triples: it drops the callee from every site of the caller. -/
theorem unlink (h : Refines g p) (hg : WellFormed g) (a b : Node) :
    Refines (g.unlink a.id b.id) (p.cut a b) := by
  have hpruned := hg.pruned_unlink a.id b.id
  refine h.of_keeps hg (hg.unlink _ _) (keeps_unlink g _ _) rfl rfl rfl rfl rfl ?_ ?_ ?_
  · intro i j
    rw [hpruned.calls_iff, ← h.mem_edges]
    simp [PlainGraph.cut, imp_iff_not_or]
  · intro i site d
    rw [hpruned.attributes_iff, ← h.mem_triples]
    simp [PlainGraph.cut, imp_iff_not_or]
  · -- A cut changes no sites, and the node is there before and after.
    intro n hn
    have hin := (h.mem_live hg.toNumbered).1 hn
    have hin' := (keeps_unlink g a.id b.id).contains_iff.2 hin
    rw [← Graph.callSites_eq hin', hpruned.callSites_eq rfl, Graph.callSites_eq hin]
    exact h.sitesOf_eq hn

/-- Removing a node. The plain graph deletes by the whole node and the stored one by its
    number. The stored graph visits only the slots that name the node, and the plain
    graph filters everything it has. -/
theorem discard (h : Refines g p) (hg : WellFormed g) {s : Slot}
    (hs : g.slot? s.node.id = some s) (hkind : s.node.kind = .ordinary) :
    Refines (g.discard s) (p.kill s.node) := by
  have hpruned := hg.pruned_discard hs
  have hg' := hg.discard hs hkind
  have hin : g.contains s.node := contains_iff.2 (node?_eq_some_iff.2 ⟨s, hs, rfl⟩)
  -- Among the nodes that are there, the number tells the node.
  have hid : ∀ {n}, g.contains n → (n = s.node ↔ n.id = s.node.id) := fun hn =>
    ⟨fun hns => by rw [hns], eq_of_contains hn hin⟩
  have hlive : (p.kill s.node).live = (g.discard s).nodes := by
    rw [PlainGraph.live_kill, h.live_eq]
    refine eq_of_ascending (hg.nodes_ascending.filter _) hg'.nodes_ascending fun n => ?_
    rw [List.mem_filter, decide_eq_true_iff, hg'.mem_nodes, hpruned.node?_eq_some_iff, hg.mem_nodes,
      and_comm]
    refine and_congr_left fun hn => ?_
    rw [decide_eq_true_iff, Ne, hid (contains_iff.2 hn)]
  refine ⟨h.serial_eq.trans hpruned.serial.symm, ?_, hlive, ?_, ?_, ?_, ?_,
    h.frozen_eq.trans hpruned.frozen.symm⟩
  · rw [hpruned.size, ← h.length_eq]
    exact List.length_map _
  · intro i j
    rw [hpruned.calls_iff, ← h.mem_edges]
    simp [PlainGraph.kill]
  · intro i site d
    rw [hpruned.attributes_iff, ← h.mem_triples]
    simp [PlainGraph.kill]
  · -- A node that is left has the sites it had, in both graphs.
    intro n hn
    rw [hlive] at hn
    have hkept := hg'.contains_iff_mem_nodes.2 hn
    rcases hpruned.node?_eq_some_iff.1 (contains_iff.1 hkept) with ⟨hne, hold⟩
    have hold' := contains_iff.2 hold
    have hother : n ≠ s.node := fun hns => (decide_eq_true_iff.1 hne) ((hid hold').1 hns)
    rw [PlainGraph.sitesOf_kill hother, ← Graph.callSites_eq hkept, hpruned.callSites_eq hne,
      Graph.callSites_eq hold']
    exact h.sitesOf_eq ((h.mem_live hg.toNumbered).2 hold')
  · rw [hpruned.entrypoints, ← h.entrypoints_eq]
    rfl

/-! ## Same checks -/

/-- Both graphs refuse when they are frozen. -/
theorem requireThawed (h : Refines g p) :
    Matches (fun _ _ => True) g.requireThawed p.requireThawed := by
  rw [Graph.requireThawed, PlainGraph.requireThawed, h.frozen_eq]
  split
  · exact .error _
  · exact .ok trivial

/-- Both graphs accept the same arguments. The stored graph goes on with a slot and the
    plain one with a node, and the slot is the slot of the node. -/
theorem require (h : Refines g p) (hg : Numbered g) (n : Option Node) :
    Matches (fun s m => s.node = m ∧ g.slot? m.id = some s) (g.require n) (p.require n) := by
  cases n with
  | none => exact .error _
  | some m =>
      rw [Graph.require, Option.bind_some, PlainGraph.require]
      cases hs : g.slotOf? m with
      -- The node is in neither graph, and both refuse it in the same words.
      | none =>
          have hm : m ∉ p.live := by
            rw [h.mem_live hg, contains, hs]
            exact Bool.false_ne_true
          rw [if_neg hm]
          exact .error _
      | some s =>
          have hm : m ∈ p.live := by
            rw [h.mem_live hg, contains, hs]
            rfl
          rcases slotOf?_eq_some_iff.1 hs with ⟨hslot, hnode⟩
          rw [if_pos hm]
          exact .ok ⟨hnode, hslot⟩

/-- Both graphs find the same node or make the same node. -/
theorem findOrCreate (h : Refines g p) (hg : WellFormed g) (u : Option CodeUnit)
    (c : Option Context) :
    Matches (fun r q => Refines r.1 q.1 ∧ r.2 = q.2) (g.findOrCreate u c) (p.findOrCreate u c) := by
  cases u with
  | none => exact .error _
  | some u =>
      cases c with
      | none => exact .error _
      | some c =>
          simp only [Graph.findOrCreate, PlainGraph.findOrCreate, h.lookup_eq hg, h.frozen_eq]
          -- Both graphs look the pair up first and ask only then whether they are frozen.
          cases g.lookup u c with
          | some n => exact .ok ⟨h, rfl⟩
          | none =>
              cases g.frozen with
              | true => exact .error _
              | false => exact .ok (h.create hg.toNumbered u c .ordinary)

/-! ## Runs -/

/-- Graphs that correspond refuse an edit for the same reason or accept it and
    correspond again. Each edit is a chain of checks, and these are matched one by one
    in the order in which both graphs make them. -/
theorem attempt (h : Refines g p) (hg : WellFormed g) (e : Edit) :
    Matches Refines (g.attempt e) (p.attempt e) := by
  -- A slot that was found for a node holds a node of the graph.
  have live : ∀ {s : Slot}, g.slot? s.node.id = some s → g.contains s.node := fun hs =>
    contains_iff.2 (node?_eq_some_iff.2 ⟨_, hs, rfl⟩)
  have ask := h.require hg.toNumbered
  cases e with
  | findOrCreate u c => exact (h.findOrCreate hg u c).map fun _ _ hr => hr.1
  | registerEntrypoint n =>
      refine (ask n).bind ?_
      rintro s _ ⟨rfl, _⟩
      exact .ok (h.markEntrypoint hg s.node.id)
  | addEdge src dst =>
      refine h.requireThawed.bind fun _ _ _ => (ask src).bind ?_
      rintro s _ ⟨rfl, hs⟩
      refine (ask dst).bind ?_
      rintro d _ ⟨rfl, hd⟩
      exact .ok (h.link hg (live_of_slot? hs) (live_of_slot? hd))
  | addSite n site =>
      refine h.requireThawed.bind fun _ _ _ => (ask n).bind ?_
      rintro s _ ⟨rfl, hs⟩
      exact .ok (h.recordSite hg (live hs) site)
  | addCall src site dst =>
      refine h.requireThawed.bind fun _ _ _ => (ask src).bind ?_
      rintro s _ ⟨rfl, hs⟩
      refine (ask dst).bind ?_
      rintro d _ ⟨rfl, hd⟩
      exact .ok (h.call hg (live hs) (live hd) site)
  | removeEdge src dst =>
      refine h.requireThawed.bind fun _ _ _ => (ask src).bind ?_
      rintro s _ ⟨rfl, _⟩
      refine (ask dst).bind ?_
      rintro d _ ⟨rfl, _⟩
      exact .ok (h.unlink hg s.node d.node)
  | removeNode n =>
      refine h.requireThawed.bind fun _ _ _ => (ask n).bind ?_
      rintro s _ ⟨rfl, hs⟩
      -- A synthetic node may not be removed, and both graphs say so after the other checks.
      by_cases hkind : s.node.kind = .ordinary
      · simp only [if_pos hkind]
        exact .ok (h.discard hg hs hkind)
      · simp only [if_neg hkind]
        exact .error _
  | freeze =>
      exact .ok ⟨h.serial_eq, h.length_eq, h.live_eq, h.mem_edges, h.mem_triples, h.sitesOf_eq,
        h.entrypoints_eq, rfl⟩

/-- One edit keeps the correspondence, whether it is accepted or not. -/
theorem after (h : Refines g p) (hg : WellFormed g) (e : Edit) :
    Refines (g.after e) (p.after e) := by
  have hmatch := h.attempt hg e
  rw [Graph.after, PlainGraph.after]
  revert hmatch
  generalize g.attempt e = x, p.attempt e = y
  intro hmatch
  cases hmatch with
  | ok h' => exact h'
  | error err => exact h

/-- Graphs that correspond do so after any sequence of edits. Well-formedness goes along
    in the induction, since each edit needs it of the stored graph. -/
theorem afterAll (h : Refines g p) (hg : WellFormed g) (es : List Edit) :
    Refines (g.afterAll es) (p.afterAll es) := by
  induction es generalizing g p with
  | nil => exact h
  | cons e rest ih => exact ih (h.after hg e) (hg.after e)

end Refines

/-- After any sequence of edits the stored graph gives the answers of the plain one, and
    both treat every further edit alike. The stored graph keeps two indexes, two
    counters, a set beside the list of entrypoints, every edge at both of its ends, and
    targets by site. The plain graph keeps lists and sets and searches them. So none of
    what the stored graph keeps for speed can be told from the outside, by any question
    or any edit. -/
theorem agree_plain (serial : Nat) (es : List Edit) :
    let g := (fresh serial).afterAll es
    let p := (PlainGraph.fresh serial).afterAll es
    -- Every question has the same answer, and nodes stand in order of number.
    (CallGraph.Agree g p ∧ (CallGraph.nodes p).Pairwise fun a b => a.id < b.id) ∧
    -- The stored counter is the number of pairs.
    (g.edges = p.edges.card ∧ g.frozen = p.frozen) ∧
    -- The next edit is refused by both for the same reason, or by neither.
    (∀ e err, g.attempt e = .error err ↔ p.attempt e = .error err) ∧
    ∀ u c, (g.findOrCreate u c).map Prod.snd = (p.findOrCreate u c).map Prod.snd := by
  intro g p
  have hg : WellFormed g := (wellFormed_fresh serial).afterAll es
  have h : Refines g p := (Refines.fresh serial).afterAll (wellFormed_fresh serial) es
  refine ⟨⟨h.agree hg, ?_⟩, ⟨h.card_edges hg, h.frozen_eq.symm⟩,
    fun e => (h.attempt hg e).error_iff, fun u c => ?_⟩
  · change p.live.Pairwise _
    rw [h.live_eq]
    exact hg.nodes_ascending
  · exact ((h.findOrCreate hg u c).map fun _ _ hr => hr.2).eq

end Graph

end CallAtlas
