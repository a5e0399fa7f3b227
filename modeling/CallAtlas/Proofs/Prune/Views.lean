import CallAtlas.Proofs.Lawful
import CallAtlas.Proofs.Prune.Removals
import CallAtlas.Snapshot.Document

/-!
# Views Answer Like Pruned Graphs

A view answers every question by asking its graph and filtering the answer. Removing
for good what the view hides leads to a graph that answers from its slots. The two
give the same answers, in the same order, and so the same documents and counts.

A view of a lawful graph is lawful, whatever it keeps and hides, even if it hides the
roots. What is left is to compare the basic answers: the nodes that are kept, the
edges that are shown, and the sites, which no removal takes from a node that stays,
even if it takes all of their targets.

## Theorems

* `View.lawful`: A view of a lawful graph is lawful.
* `Document.encode_congr`: Graphs that agree have the same document.
* `View.agree_of_pruned`: A view agrees with the graph pruned to what it shows.
* `View.agree_afterAll`: A view agrees with the graph from which everything that it
  hides was removed.
-/

namespace CallAtlas

namespace View

open CallGraph (Lawful)

variable {v : View}

theorem contains_iff {n : Node} : v.contains n ↔ n.id ∈ v.filter.keep ∧ v.graph.contains n := by
  simp [contains]

/-- A view shows a callee that it keeps, unless the pair is hidden. -/
theorem shows_iff {a b : Node} :
    v.shows a b ↔ b.id ∈ v.filter.keep ∧ v.filter.hidden.hides a.id b.id = false := by
  simp [shows]

/-- A view has the edges of its graph between nodes that it contains, unless they are hidden. -/
theorem hasEdge_iff {a b : Node} :
    v.hasEdge a b ↔ v.contains a ∧ v.contains b ∧ v.filter.hidden.hides a.id b.id = false ∧
      v.graph.hasEdge a b := by
  simp [hasEdge, and_assoc]

/-- The nodes of a view are the nodes of its graph that it contains. -/
theorem mem_nodes (hg : Lawful v.graph) {n : Node} : n ∈ CallGraph.nodes v ↔ v.contains n := by
  change n ∈ v.graph.nodes.filter _ ↔ _
  rw [List.mem_filter, IdSet.contains_iff, contains_iff, and_comm]
  exact and_congr_right fun _ => hg.contains_iff.symm

/-- The targets of a site are those of the graph that are shown. -/
theorem mem_targets {n m : Node} {site : CallSite} :
    m ∈ CallGraph.targets v n site ↔
      v.contains n ∧ m ∈ v.graph.targets n site ∧ v.shows n m := by
  change m ∈ (if v.contains n then (v.graph.targets n site).filter (v.shows n) else []) ↔ _
  split
  · next hn => rw [List.mem_filter, and_iff_right hn]
  · next hn => simp [hn]

/-- An edge of the view is an edge of the graph that leaves a node to be seen and is
    shown. -/
theorem hasEdge_iff_shows (hg : Lawful v.graph) {a b : Node} :
    v.hasEdge a b ↔
      v.contains a ∧ (b ∈ CallGraph.nodes v.graph ∧ v.graph.hasEdge a b) ∧ v.shows a b := by
  rw [hasEdge_iff, shows_iff, contains_iff (n := b), ← hg.contains_iff]
  constructor
  · rintro ⟨ha, ⟨hkeep, hb⟩, hshow, hab⟩
    exact ⟨ha, ⟨hb, hab⟩, hkeep, hshow⟩
  · rintro ⟨ha, ⟨hb, hab⟩, hkeep, hshow⟩
    exact ⟨ha, ⟨hkeep, hb⟩, hshow, hab⟩

/-- A target is called from its site and over an edge, in a view as in a graph. -/
theorem target_edge (hg : Lawful v.graph) {n m : Node} {site : CallSite}
    (hm : m ∈ CallGraph.targets v n site) :
    site ∈ CallGraph.callSites v n ∧ m ∈ CallGraph.nodes v ∧ v.hasEdge n m := by
  rcases mem_targets.1 hm with ⟨hn, hm, hshow⟩
  rcases hg.target_edge hm with ⟨hsite, hmem, hedge⟩
  have hsee := (hasEdge_iff_shows hg).2 ⟨hn, ⟨hmem, hedge⟩, hshow⟩
  refine ⟨?_, (mem_nodes hg).2 (hasEdge_iff.1 hsee).2.1, hsee⟩
  change site ∈ if v.contains n then v.graph.callSites n else []
  rw [if_pos hn]
  exact hsite

/-- The callees of a node are the nodes to be seen to which it has an edge. They are
    computed from the callees in the graph, and both lists ascend, so it is enough to
    compare their members. -/
theorem succs_eq (hg : Lawful v.graph) (n : Node) :
    v.succs n = (CallGraph.nodes v).filter (v.hasEdge n) := by
  have hsuccs : v.graph.succs n = (CallGraph.nodes v.graph).filter (v.graph.hasEdge n) :=
    hg.succs_eq n
  unfold succs
  rw [hsuccs]
  split
  · next hn =>
    refine eq_of_ascending ((hg.ascending.filter _).filter _) ((hg.ascending.filter _).filter _)
      fun m => ?_
    rw [List.mem_filter, List.mem_filter, List.mem_filter, mem_nodes hg, hasEdge_iff_shows hg]
    constructor
    · rintro ⟨hm, hshow⟩
      have hsee := (hasEdge_iff_shows hg).2 ⟨hn, hm, hshow⟩
      exact ⟨(hasEdge_iff.1 hsee).2.1, hn, hm, hshow⟩
    · rintro ⟨_, _, hm, hshow⟩
      exact ⟨hm, hshow⟩
  · -- A node that is not to be seen has no callees and no edges.
    next hn =>
    rw [eq_comm, List.filter_eq_nil_iff]
    exact fun m _ hedge => hn (hasEdge_iff.1 hedge).1

/-- The callers of a node are the nodes to be seen that have an edge to it. -/
theorem preds_eq (hg : Lawful v.graph) (n : Node) :
    v.preds n = (CallGraph.nodes v).filter fun m => v.hasEdge m n := by
  have hpreds : v.graph.preds n = (CallGraph.nodes v.graph).filter fun m => v.graph.hasEdge m n :=
    hg.preds_eq n
  unfold preds
  rw [hpreds]
  split
  · next hn =>
    refine eq_of_ascending ((hg.ascending.filter _).filter _) ((hg.ascending.filter _).filter _)
      fun m => ?_
    rw [List.mem_filter, List.mem_filter, List.mem_filter, mem_nodes hg, hasEdge_iff,
      ← hg.contains_iff]
    -- The graph tells the callers, and the view leaves out those that it does not keep or
    -- hides.
    simp only [Bool.and_eq_true, IdSet.contains_iff, Bool.not_eq_true']
    constructor
    · rintro ⟨⟨hm, hedge⟩, hkeep, hshow⟩
      exact ⟨contains_iff.2 ⟨hkeep, hm⟩, contains_iff.2 ⟨hkeep, hm⟩, hn, hshow, hedge⟩
    · rintro ⟨hm, _, _, hshow, hedge⟩
      rcases contains_iff.1 hm with ⟨hkeep, hm⟩
      exact ⟨⟨hm, hedge⟩, hkeep, hshow⟩
  · next hn =>
    rw [eq_comm, List.filter_eq_nil_iff]
    exact fun m _ hedge => hn (hasEdge_iff.1 hedge).2.1

/-- The sites between two nodes are those that have the second for a target. They are
    all there if the edge is, since a view hides an edge with all of its sites. -/
theorem sitesBetween_eq (hg : Lawful v.graph) (a b : Node) :
    CallGraph.sitesBetween v a b =
      (CallGraph.callSites v a).filter fun s => b ∈ CallGraph.targets v a s := by
  change (if v.hasEdge a b then v.graph.sitesBetween a b else []) = _
  split
  · next hedge =>
    rcases (hasEdge_iff_shows hg).1 hedge with ⟨ha, _, hshow⟩
    -- The view of a node has all the sites that the graph has for it.
    have hsites : CallGraph.callSites v a = v.graph.callSites a := if_pos ha
    have hbetween : v.graph.sitesBetween a b =
        (v.graph.callSites a).filter fun s => b ∈ v.graph.targets a s := hg.sitesBetween_eq a b
    rw [hsites, hbetween]
    refine List.filter_congr fun s _ => ?_
    rw [decide_eq_decide, mem_targets]
    exact ⟨fun hb => ⟨ha, hb, hshow⟩, fun hb => hb.2.1⟩
  · next hedge =>
    rw [eq_comm, List.filter_eq_nil_iff]
    exact fun s _ hb => hedge (target_edge hg (decide_eq_true_iff.1 hb)).2.2

/-- A view of a lawful graph is lawful. The laws are about the answers to queries, and
    each answer of a view is the answer of its graph with something left out. Leaving
    out the same everywhere is what keeps the laws. -/
theorem lawful (hg : Lawful v.graph) : Lawful v where
  ascending := hg.ascending.filter _
  kind_cases hn := hg.kind_cases (List.mem_filter.1 hn).1
  contains_iff := (mem_nodes hg).symm
  -- The remaining laws follow from the same laws of the graph, each list being filtered.
  node?_eq_some_iff := by
    intro i n
    have hnode : v.graph.node? i = some n ↔ n ∈ CallGraph.nodes v.graph ∧ n.id = i :=
      hg.node?_eq_some_iff
    change (v.graph.node? i).filter v.contains = some n ↔ _
    rw [Option.filter_eq_some_iff, mem_nodes hg, hnode]
    constructor
    · rintro ⟨⟨_, hid⟩, hn⟩
      exact ⟨hn, hid⟩
    · rintro ⟨hn, hid⟩
      exact ⟨⟨hg.contains_iff.1 (contains_iff.1 hn).2, hid⟩, hn⟩
  fakeRoot_eq := rfl
  fakeWorldClinit_eq := rfl
  lookup_eq_some_iff := by
    intro u c n
    have hlookup : v.graph.lookup u c = some n ↔
        n ∈ CallGraph.nodes v.graph ∧ n.unit = u ∧ n.context = c := hg.lookup_eq_some_iff
    change (v.graph.lookup u c).filter v.contains = some n ↔ _
    rw [Option.filter_eq_some_iff, mem_nodes hg, hlookup]
    constructor
    · rintro ⟨⟨_, hpair⟩, hn⟩
      exact ⟨hn, hpair⟩
    · rintro ⟨hn, hpair⟩
      exact ⟨⟨hg.contains_iff.1 (contains_iff.1 hn).2, hpair⟩, hn⟩
  nodesOf_eq := by
    intro u
    have hof : CallGraph.nodesOf v.graph u =
        (CallGraph.nodes v.graph).filter fun n => n.unit = u := hg.nodesOf_eq u
    change v.kept (CallGraph.nodesOf v.graph u) = (v.kept v.graph.nodes).filter _
    rw [hof, kept, kept, List.filter_filter, List.filter_filter]
    exact List.filter_congr fun n _ => Bool.and_comm _ _
  nodeCount_eq := rfl
  edge_left hab := (mem_nodes hg).2 (hasEdge_iff.1 hab).1
  succs_eq := succs_eq hg
  preds_eq := preds_eq hg
  succCount_eq _ := rfl
  predCount_eq _ := rfl
  callSites_nodup := by
    intro n
    change (if v.contains n then v.graph.callSites n else []).Nodup
    split
    · exact hg.callSites_nodup n
    · exact List.nodup_nil
  targets_ascending := by
    intro n site
    change (if v.contains n then (v.graph.targets n site).filter (v.shows n) else []).Pairwise _
    split
    · exact (hg.targets_ascending n site).filter _
    · exact List.Pairwise.nil
  target_edge := target_edge hg
  sitesBetween_eq := sitesBetween_eq hg
  entrypoints_nodup := hg.entrypoints_nodup.filter _
  mem_of_mem_entrypoints := by
    intro n hn
    rcases List.mem_filter.1 hn with ⟨hn, hkeep⟩
    exact List.mem_filter.2 ⟨hg.mem_of_mem_entrypoints hn, hkeep⟩

end View

/-- Graphs that agree have the same document, since it is made from their answers alone. -/
theorem Document.encode_congr {G H : Type} [CallGraph G] [CallGraph H] {g : G} {h : H}
    (hgh : CallGraph.Agree g h) : Document.encode g = Document.encode h := by
  have hedges : CallGraph.edges g = CallGraph.edges h := by
    simp only [CallGraph.edges, hgh.nodes, hgh.succs]
  have hnode : Document.nodeRecord g = Document.nodeRecord h := by
    funext n
    simp only [Document.nodeRecord, hgh.callSites]
  have hedge : Document.edgeRecord g = Document.edgeRecord h := by
    funext e
    simp only [Document.edgeRecord, hgh.callSites, hgh.sitesBetween]
  rw [Document.encode, Document.encode, hgh.nodes, hgh.entrypoints, hedges, hnode, hedge]

namespace Graph

variable {g g' : Graph} {keeps : Int → Bool} {shows : Int → Int → Bool}

/-! ## Answers of a pruned graph -/

/-- A pruned graph attributes what it attributed before, along the edges that are shown. -/
theorem Pruned.attributes_iff (h : Pruned keeps shows g g') {i : Int} {site : CallSite} {d : Int} :
    g'.Attributes i site d ↔ g.Attributes i site d ∧ shows i d := by
  unfold Attributes
  rw [h.slot?]
  by_cases hk : keeps i
  · rw [if_pos hk]
    cases g.slot? i with
    | none => simp
    | some s =>
        simp only [Option.map_some, Option.some.injEq, exists_eq_left', Slot.restrict,
          Table.find?_mapValues]
        cases s.targets.find? site with
        | none => simp
        | some t => simp
  · -- A number that is not kept has no slot left, and none of its edges is shown.
    rw [if_neg hk]
    constructor
    · rintro ⟨s, hs, _⟩
      exact absurd hs (by simp)
    · rintro ⟨_, hshow⟩
      exact absurd (h.ends hshow).1 hk

/-- A node that stays keeps all of its sites. -/
theorem Pruned.callSites_eq (h : Pruned keeps shows g g') {n : Node} (hk : keeps n.id) :
    g'.callSites n = g.callSites n := by
  unfold callSites slotOf?
  rw [h.slot?, if_pos hk]
  cases g.slot? n.id with
  | none => rfl
  | some s =>
      rw [Option.map_some, Option.filter_some, Option.filter_some]
      by_cases hn : s.node = n
      · simp [hn, Slot.restrict]
      · simp [hn, Slot.restrict]

/-- The nodes of some numbers that stay are the nodes that stay. -/
theorem Pruned.nodesWith_filter (h : Pruned keeps shows g g') (hg : Numbered g) (ids : List Int) :
    g'.nodesWith (ids.filter keeps) = (g.nodesWith ids).filter fun n => keeps n.id := by
  rw [hg.filter_nodesWith, nodesWith, nodesWith]
  refine List.filterMap_congr fun i hi => ?_
  rw [h.node?, if_pos (List.mem_filter.1 hi).2]

end Graph

namespace View

variable {g g' : Graph} {keep : IdSet} {hidden : Overlay}

theorem contains_of {n : Node} :
    (View.of g keep hidden).contains n ↔ n.id ∈ keep ∧ g.contains n := contains_iff

/-- A view shows callees as the overlay says that it was given, also after that was trimmed. -/
theorem shows_of {a b : Node} :
    (View.of g keep hidden).shows a b ↔ b.id ∈ keep ∧ hidden.hides a.id b.id = false := by
  rw [shows_iff, ← hidden.hides_trim]
  rfl

/-- A view shows the edges that a pruned graph has. -/
theorem hasEdge_iff_of_pruned (h : Graph.Pruned keep.contains (Overlay.shown keep hidden) g g')
    {a b : Node} : (View.of g keep hidden).hasEdge a b ↔ g'.hasEdge a b := by
  rw [Graph.hasEdge_iff, h.contains_iff, h.contains_iff, h.calls_iff, Overlay.shown_iff,
    IdSet.contains_iff, IdSet.contains_iff, hasEdge_iff, contains_of, contains_of,
    ← hidden.hides_trim]
  change _ ∧ _ ∧ _ ∧ g.hasEdge a b ↔ _
  rw [Graph.hasEdge_iff]
  constructor
  · rintro ⟨⟨hka, ha⟩, ⟨hkb, hb⟩, hshow, _, _, hcalls⟩
    exact ⟨⟨hka, ha⟩, ⟨hkb, hb⟩, hcalls, hka, hkb, hshow⟩
  · rintro ⟨⟨hka, ha⟩, ⟨hkb, hb⟩, hcalls, _, _, hshow⟩
    exact ⟨⟨hka, ha⟩, ⟨hkb, hb⟩, hshow, ha, hb, hcalls⟩

/-- A view shows the targets that a pruned graph has. -/
theorem mem_targets_iff_of_pruned (hg : g.WellFormed) (hg' : g'.WellFormed)
    (h : Graph.Pruned keep.contains (Overlay.shown keep hidden) g g') {n m : Node}
    {site : CallSite} :
    m ∈ CallGraph.targets (View.of g keep hidden) n site ↔ m ∈ g'.targets n site := by
  rw [mem_targets, hg'.mem_targets, h.contains_iff, h.contains_iff, h.attributes_iff,
    Overlay.shown_iff, IdSet.contains_iff, IdSet.contains_iff, contains_of, shows_of]
  change _ ∧ m ∈ g.targets n site ∧ _ ↔ _
  rw [hg.mem_targets]
  constructor
  · rintro ⟨⟨hkn, hn⟩, ⟨_, hm, hat⟩, hkm, hshow⟩
    exact ⟨⟨hkn, hn⟩, ⟨hkm, hm⟩, hat, hkn, hkm, hshow⟩
  · rintro ⟨⟨hkn, hn⟩, ⟨hkm, hm⟩, hat, _, _, hshow⟩
    exact ⟨⟨hkn, hn⟩, ⟨hn, hm, hat⟩, hkm, hshow⟩

/-- A view agrees with the graph pruned to what it shows. Both are lawful, so it is
    enough that they have the same nodes, edges, sites, targets and entrypoints. -/
theorem agree_of_pruned (hg : g.WellFormed) (hg' : g'.WellFormed)
    (h : Graph.Pruned keep.contains (Overlay.shown keep hidden) g g') :
    CallGraph.Agree (View.of g keep hidden) g' := by
  have hlawful := hg.lawful
  have hcontains : ∀ {n}, (View.of g keep hidden).contains n ↔ g'.contains n := by
    intro n
    rw [contains_of, h.contains_iff, IdSet.contains_iff]
  refine (lawful hlawful).agree hg'.lawful ?_ ?_ (fun a b => hasEdge_iff_of_pruned h) ?_
    (fun n site m => mem_targets_iff_of_pruned hg hg' h) ?_
  · refine eq_of_ascending (lawful hlawful).ascending hg'.nodes_ascending fun n => ?_
    rw [mem_nodes hlawful, hcontains, hg'.contains_iff_mem_nodes]
    rfl
  · exact congrArg (fun k : Nat => (k : Int) - 1) h.size.symm
  · intro n
    change (if (View.of g keep hidden).contains n then g.callSites n else []) = g'.callSites n
    split
    · next hn => exact (h.callSites_eq (IdSet.contains_iff.2 (contains_of.1 hn).1)).symm
    · -- What is not to be seen was removed, and a removed node has no sites.
      next hn =>
      rw [hcontains] at hn
      exact (Graph.callSites_of_not_contains hn).symm
  · change (View.of g keep hidden).kept (g.nodesWith g.entrypoints) = g'.nodesWith g'.entrypoints
    rw [h.entrypoints, h.nodesWith_filter hg.toNumbered]
    rfl

/-- A view agrees with the graph from which everything that it hides was removed, in
    whatever order, hence it has the same document and as many edges.

    The roots have to be kept, since they cannot be removed, and the graph must not be
    frozen. -/
theorem agree_afterAll (hg : g.Obtainable) (hf : g.frozen = false)
    (hroot : Graph.rootId ∈ keep) (hclinit : Graph.clinitId ∈ keep) (hidden : Overlay)
    {es : List Graph.Edit} (hes : ∀ e, e ∈ es ↔ g.Removes keep hidden e) :
    CallGraph.Agree (View.of g keep hidden) (g.afterAll es) ∧
      Document.encode (View.of g keep hidden) = Document.encode (g.afterAll es) ∧
      (CallGraph.countEdges (View.of g keep hidden) : Int) = (g.afterAll es).edges := by
  have hwf := hg.wellFormed
  have hwf' := hwf.afterAll es
  have hagree := agree_of_pruned hwf hwf' (Graph.pruned_afterAll hwf hf hroot hclinit hes)
  refine ⟨hagree, Document.encode_congr hagree, ?_⟩
  rw [hagree.countEdges_eq]
  exact hwf'.countEdges_eq

/-! ## A view with a loop, an edge of two sites and a hidden pair without an edge -/

/-- The node numbered `id` of a small graph. -/
def lettered (id : Int) (name : String) : Node :=
  ⟨0, id, .named ⟨"", name, "()"⟩, .everywhere, .ordinary⟩

/-- A calls itself and, from two sites, B; B calls C and A without a site. -/
def letters : Graph :=
  let a := some (lettered 2 "A")
  let b := some (lettered 3 "B")
  let c := some (lettered 4 "C")
  (Graph.fresh 0).afterAll
    [.findOrCreate (some (.named ⟨"", "A", "()"⟩)) (some .everywhere),
      .findOrCreate (some (.named ⟨"", "B", "()"⟩)) (some .everywhere),
      .findOrCreate (some (.named ⟨"", "C", "()"⟩)) (some .everywhere),
      .addCall a ⟨0, ⟨"", "A", "()"⟩, .static⟩ a, .addCall a ⟨1, ⟨"", "B", "()"⟩, .virtual⟩ b,
      .addCall a ⟨2, ⟨"", "B", "()"⟩, .static⟩ b, .addEdge b c, .addEdge b a,
      .registerEntrypoint c, .registerEntrypoint a]

/-- The view without C and without the call from A to B. -/
theorem agree_afterAll_letters :
    let keep := IdSet.ofList [0, 1, 2, 3]
    let hidden : Overlay := Table.empty.insert 2 (IdSet.ofList [3, 1])
    CallGraph.countEdges (View.of letters keep hidden) = 2 ∧
      CallGraph.Agree (View.of letters keep hidden)
        (letters.afterAll (letters.removals keep hidden).reverse) :=
  have hg : letters.Obtainable := ⟨0, _, rfl⟩
  ⟨by decide, (agree_afterAll hg (by decide) (by decide) (by decide) _
    (fun _ => List.mem_reverse.trans hg.wellFormed.mem_removals)).1⟩

end View

end CallAtlas
