import CallAtlas.Proofs.Queries

/-!
# Lawful Call Graphs

A call graph answers eighteen questions, and most of the answers follow from a few:
which nodes there are, which of them call which, which sites a node has and which
callees each site may invoke, and which nodes are entrypoints. A call graph is lawful
if its other answers follow from these in the expected way. Whoever reads a lawful
graph needs to know nothing of slots, indexes or filters, and two lawful graphs that
agree on the few answers agree on all of them.

Lists of nodes ascend by number, so they are determined by their members. This is
used wherever two lists of nodes are compared.

## Main definitions

* `CallGraph.Lawful`: The answers of a call graph follow from the basic ones.
* `CallGraph.Agree`: Two call graphs give the same answer to every question.

## Theorems

* `eq_of_ascending`: An ascending list of nodes is determined by its members.
* `CallGraph.length_edges`: There are as many edges to list as there are to count.
* `CallGraph.Lawful.agree`: Lawful graphs that agree on the basic answers agree.
* `CallGraph.Agree.countEdges_eq`: Graphs that agree have equally many edges.
* `Graph.WellFormed.lawful`: A well-formed graph is lawful.
-/

namespace CallAtlas

theorem nodup_of_ascending {l : List Node} (hl : l.Pairwise fun a b => a.id < b.id) : l.Nodup :=
  hl.imp fun hab h => absurd hab (by rw [h]; omega)

/-- An ascending list of nodes is determined by its members. Most answers are such
    lists, so two graphs that agree on what is in an answer agree on the answer, order
    and all. -/
theorem eq_of_ascending {l m : List Node} (hl : l.Pairwise fun a b => a.id < b.id)
    (hm : m.Pairwise fun a b => a.id < b.id) (h : ∀ n, n ∈ l ↔ n ∈ m) : l = m := by
  refine List.Perm.eq_of_pairwise (fun a b _ _ hab hba => ?_) hl hm
    ((List.perm_ext_iff_of_nodup (nodup_of_ascending hl) (nodup_of_ascending hm)).2 h)
  exact absurd hab (by omega)

namespace CallGraph

variable {G H : Type} [CallGraph G] [CallGraph H]

/-- The answers of a call graph follow from its nodes, edges, sites, targets and
    entrypoints, and its first two numbers are those of the synthetic roots. -/
structure Lawful (g : G) : Prop where
  ascending : (nodes g).Pairwise fun a b => a.id < b.id
  kind_cases : ∀ {n}, n ∈ nodes g →
    (∃ serial, n = ⟨serial, Graph.rootId, .fakeRoot, .everywhere, .fakeRoot⟩) ∨
      (∃ serial, n = ⟨serial, Graph.clinitId, .fakeWorldClinit, .everywhere, .fakeWorldClinit⟩) ∨
      (Graph.clinitId < n.id ∧ n.kind = .ordinary)
  contains_iff : ∀ {n}, contains g n ↔ n ∈ nodes g
  node?_eq_some_iff : ∀ {i n}, node? g i = some n ↔ n ∈ nodes g ∧ n.id = i
  fakeRoot_eq : fakeRoot g = node? g Graph.rootId
  fakeWorldClinit_eq : fakeWorldClinit g = node? g Graph.clinitId
  lookup_eq_some_iff : ∀ {u c n}, lookup g u c = some n ↔ n ∈ nodes g ∧ n.unit = u ∧ n.context = c
  nodesOf_eq : ∀ u, nodesOf g u = (nodes g).filter fun n => n.unit = u
  nodeCount_eq : nodeCount g = (nodes g).length
  edge_left : ∀ {a b}, hasEdge g a b → a ∈ nodes g
  succs_eq : ∀ n, succs g n = (nodes g).filter (hasEdge g n)
  preds_eq : ∀ n, preds g n = (nodes g).filter fun m => hasEdge g m n
  succCount_eq : ∀ n, succCount g n = (succs g n).length
  predCount_eq : ∀ n, predCount g n = (preds g n).length
  callSites_nodup : ∀ n, (callSites g n).Nodup
  targets_ascending : ∀ n site, (targets g n site).Pairwise fun a b => a.id < b.id
  target_edge : ∀ {n site m}, m ∈ targets g n site →
    site ∈ callSites g n ∧ m ∈ nodes g ∧ hasEdge g n m
  sitesBetween_eq : ∀ a b, sitesBetween g a b = (callSites g a).filter fun s => b ∈ targets g a s
  entrypoints_nodup : (entrypoints g).Nodup
  mem_of_mem_entrypoints : ∀ {n}, n ∈ entrypoints g → n ∈ nodes g

/-- Two call graphs give the same answer to every question. -/
structure Agree (g : G) (h : H) : Prop where
  fakeRoot : fakeRoot g = fakeRoot h
  fakeWorldClinit : fakeWorldClinit g = fakeWorldClinit h
  entrypoints : entrypoints g = entrypoints h
  node? : ∀ i, node? g i = node? h i
  lookup : ∀ u c, lookup g u c = lookup h u c
  nodesOf : ∀ u, nodesOf g u = nodesOf h u
  nodes : nodes g = nodes h
  nodeCount : nodeCount g = nodeCount h
  maxId : maxId g = maxId h
  contains : ∀ n, contains g n = contains h n
  succs : ∀ n, succs g n = succs h n
  preds : ∀ n, preds g n = preds h n
  succCount : ∀ n, succCount g n = succCount h n
  predCount : ∀ n, predCount g n = predCount h n
  hasEdge : ∀ a b, hasEdge g a b = hasEdge h a b
  callSites : ∀ n, callSites g n = callSites h n
  targets : ∀ n site, targets g n site = targets h n site
  sitesBetween : ∀ a b, sitesBetween g a b = sitesBetween h a b

theorem Lawful.eq_of_id {g : G} (hg : Lawful g) {a b : Node} (ha : a ∈ nodes g) (hb : b ∈ nodes g)
    (h : a.id = b.id) : a = b := by
  have hnode := hg.node?_eq_some_iff.2 ⟨ha, rfl⟩
  rw [h, hg.node?_eq_some_iff.2 ⟨hb, rfl⟩, Option.some.injEq] at hnode
  exact hnode.symm

/-- Callees are nodes of the graph, so there is no need to ask for that separately. -/
theorem Lawful.mem_succs {g : G} (hg : Lawful g) {a b : Node} :
    b ∈ succs g a ↔ b ∈ nodes g ∧ hasEdge g a b := by
  rw [hg.succs_eq, List.mem_filter]

/-- The listed edges are the pairs of nodes that have an edge between them. -/
theorem Lawful.mem_edges {g : G} (hg : Lawful g) {e : Node × Node} :
    e ∈ edges g ↔ e.1 ∈ nodes g ∧ e.2 ∈ nodes g ∧ hasEdge g e.1 e.2 := by
  rcases e with ⟨a, b⟩
  simp only [edges, List.mem_flatMap, List.mem_map, Prod.mk.injEq, hg.mem_succs]
  constructor
  · rintro ⟨src, hsrc, dst, ⟨hdst, hedge⟩, rfl, rfl⟩
    exact ⟨hsrc, hdst, hedge⟩
  · rintro ⟨ha, hb, hedge⟩
    exact ⟨a, ha, b, ⟨hb, hedge⟩, rfl, rfl⟩

/-- There are as many edges to list as there are to count. -/
theorem length_edges {g : G} (hg : Lawful g) : (edges g).length = countEdges g := by
  rw [edges, countEdges]
  induction nodes g with
  | nil => rfl
  | cons n rest ih =>
      rw [List.flatMap_cons, List.length_append, List.length_map, ih, ← hg.succCount_eq]
      rfl

theorem Lawful.mem_sitesBetween {g : G} (hg : Lawful g) {a b : Node} {site : CallSite} :
    site ∈ sitesBetween g a b ↔ b ∈ targets g a site := by
  rw [hg.sitesBetween_eq, List.mem_filter, decide_eq_true_iff]
  exact ⟨fun h => h.2, fun h => ⟨(hg.target_edge h).1, h⟩⟩

/-- Lawful graphs that agree on nodes, numbers, edges, sites, targets and entrypoints
    agree. The largest number is among the assumptions because it does not follow from
    the nodes: a node that was removed may have had a larger one. -/
theorem Lawful.agree {g : G} {h : H} (hg : Lawful g) (hh : Lawful h) (hnodes : nodes g = nodes h)
    (hmax : maxId g = maxId h) (hedge : ∀ a b, hasEdge g a b ↔ hasEdge h a b)
    (hsites : ∀ n, callSites g n = callSites h n)
    (htargets : ∀ n site m, m ∈ targets g n site ↔ m ∈ targets h n site)
    (hentry : entrypoints g = entrypoints h) : Agree g h := by
  have hedge' : ∀ a b, hasEdge g a b = hasEdge h a b := fun a b => Bool.eq_iff_iff.2 (hedge a b)
  have hnode : ∀ i, node? g i = node? h i := by
    intro i
    refine Option.ext fun n => ?_
    rw [hg.node?_eq_some_iff, hh.node?_eq_some_iff, hnodes]
  have hsuccs : ∀ n, succs g n = succs h n := by
    intro n
    rw [hg.succs_eq, hh.succs_eq, hnodes]
    exact List.filter_congr fun m _ => hedge' n m
  have hpreds : ∀ n, preds g n = preds h n := by
    intro n
    rw [hg.preds_eq, hh.preds_eq, hnodes]
    exact List.filter_congr fun m _ => hedge' m n
  have htargets' : ∀ n site, targets g n site = targets h n site := fun n site =>
    eq_of_ascending (hg.targets_ascending n site) (hh.targets_ascending n site) (htargets n site)
  -- The other answers are filters of these lists, or their lengths.
  refine ⟨?_, ?_, hentry, hnode, ?_, ?_, hnodes, ?_, hmax, ?_, hsuccs, hpreds, ?_, ?_, hedge',
    hsites, htargets', ?_⟩
  · rw [hg.fakeRoot_eq, hh.fakeRoot_eq, hnode]
  · rw [hg.fakeWorldClinit_eq, hh.fakeWorldClinit_eq, hnode]
  · intro u c
    refine Option.ext fun n => ?_
    rw [hg.lookup_eq_some_iff, hh.lookup_eq_some_iff, hnodes]
  · intro u
    rw [hg.nodesOf_eq, hh.nodesOf_eq, hnodes]
  · rw [hg.nodeCount_eq, hh.nodeCount_eq, hnodes]
  · intro n
    rw [Bool.eq_iff_iff, hg.contains_iff, hh.contains_iff, hnodes]
  · intro n
    rw [hg.succCount_eq, hh.succCount_eq, hsuccs]
  · intro n
    rw [hg.predCount_eq, hh.predCount_eq, hpreds]
  · intro a b
    rw [hg.sitesBetween_eq, hh.sitesBetween_eq, hsites]
    simp only [htargets']

/-- Graphs that agree have equally many edges. -/
theorem Agree.countEdges_eq {g : G} {h : H} (hgh : Agree g h) : countEdges g = countEdges h := by
  rw [countEdges, countEdges, hgh.nodes]
  congr 2
  funext n
  exact hgh.succCount n

end CallGraph

/-! ## Well-formed graphs -/

namespace Graph

variable {g : Graph}

/-- A list of live numbers has as many nodes. -/
theorem length_nodesWith {ids : List Int} (h : ∀ i ∈ ids, g.Live i) :
    (g.nodesWith ids).length = ids.length := by
  rw [nodesWith, List.filterMap_length_eq_length]
  exact fun i hi => live_iff_node?.1 (h i hi)

/-- The counter of nodes is the length of their list. Both count the live numbers, since
    the list is ascending and so has each of them once. -/
theorem WellFormed.length_nodes (hg : WellFormed g) : (g.nodes.length : Int) = g.live := by
  have hinj : (g.nodes.map fun n => n.id).Nodup := by
    rw [List.Nodup, List.pairwise_map]
    exact hg.nodes_ascending.imp fun h => Int.ne_of_lt h
  -- Both count the live numbers: the counter as a set, and the list without repetitions.
  have hset : {i | g.Live i} = ((g.nodes.map fun n => n.id).toFinset : Set Int) := by
    ext i
    rw [List.coe_toFinset, Set.mem_ofPred_eq, Set.mem_ofPred_eq, List.mem_map]
    constructor
    · intro hi
      rcases hg.exists_contains hi with ⟨n, hn, rfl⟩
      exact ⟨n, hg.contains_iff_mem_nodes.1 hn, rfl⟩
    · rintro ⟨n, hn, rfl⟩
      exact live_of_contains (hg.contains_iff_mem_nodes.2 hn)
  rw [hg.live_eq, hset, Set.ncard_coe_finset, List.toFinset_card_of_nodup hinj, List.length_map]

/-- A callee is a node, so none is lost when the numbers of a slot are turned into nodes. -/
theorem WellFormed.length_succs (hg : WellFormed g) (n : Node) :
    (g.succs n).length = g.succCount n := by
  unfold succs succCount
  cases hs : g.slotOf? n with
  | none => rfl
  | some s =>
      exact length_nodesWith fun d hd => hg.live_right ⟨s, (slotOf?_eq_some_iff.1 hs).1, hd⟩

theorem WellFormed.length_preds (hg : WellFormed g) (n : Node) :
    (g.preds n).length = g.predCount n := by
  unfold preds predCount
  cases hs : g.slotOf? n with
  | none => rfl
  | some s =>
      refine length_nodesWith fun p hp => ?_
      -- A caller is a node because it stores the edge too.
      exact (hg.calls_iff.2 ⟨s, (slotOf?_eq_some_iff.1 hs).1, hp⟩).live_left

/-- Callees are listed by ascending number, since that is how a slot stores them. -/
theorem Numbered.succs_ascending (hg : Numbered g) (n : Node) :
    (g.succs n).Pairwise fun a b => a.id < b.id := by
  unfold succs
  split
  · next s _ => exact hg.nodesWith_ascending s.succs.ascending
  · exact List.Pairwise.nil

theorem Numbered.preds_ascending (hg : Numbered g) (n : Node) :
    (g.preds n).Pairwise fun a b => a.id < b.id := by
  unfold preds
  split
  · next s _ => exact hg.nodesWith_ascending s.preds.ascending
  · exact List.Pairwise.nil

theorem Numbered.targets_ascending (hg : Numbered g) (n : Node) (site : CallSite) :
    (g.targets n site).Pairwise fun a b => a.id < b.id := by
  unfold targets
  split
  · next t _ => exact hg.nodesWith_ascending t.ascending
  · exact List.Pairwise.nil

/-- A target is attributed to a recorded site and called. -/
theorem WellFormed.target_edge (hg : WellFormed g) {n m : Node} {site : CallSite}
    (hm : m ∈ g.targets n site) : site ∈ g.callSites n ∧ m ∈ g.nodes ∧ g.hasEdge n m := by
  rcases hg.mem_targets.1 hm with ⟨hn, hm, hat⟩
  refine ⟨?_, hg.contains_iff_mem_nodes.1 hm, hasEdge_iff.2 ⟨hn, hm, hg.calls_of_attributes hat⟩⟩
  rw [callSites_eq hn]
  exact hg.mem_sitesAt_of_attributes hat

/-- Sites are recorded once, as keys of a table are. -/
theorem WellFormed.callSites_nodup (hg : WellFormed g) (n : Node) : (g.callSites n).Nodup := by
  unfold callSites
  cases hs : g.slotOf? n with
  | none => exact List.nodup_nil
  | some s =>
      change s.sites.Nodup
      rw [← hg.keys_eq (slotOf?_eq_some_iff.1 hs).1]
      exact s.targets.nodup

/-- The sites between two nodes are those that have the second as a target. The graph
    looks for the edge first, and without the edge there is no such site. -/
theorem WellFormed.sitesBetween_eq (hg : WellFormed g) (a b : Node) :
    g.sitesBetween a b = (g.callSites a).filter fun s => b ∈ g.targets a s := by
  unfold sitesBetween callSites
  cases hs : g.slotOf? a with
  | none => rfl
  | some s =>
      have hslot := (slotOf?_eq_some_iff.1 hs).1
      have ha : g.contains a := by rw [contains, hs]; rfl
      change (if g.hasEdge a b then s.sites.filter _ else []) = s.sites.filter _
      by_cases hedge : g.hasEdge a b
      · rw [if_pos hedge]
        -- The edge is there, so only the targets of each site are to be compared.
        refine List.filter_congr fun site _ => ?_
        rw [Bool.eq_iff_iff, IdSet.contains_iff, decide_eq_true_iff, hg.mem_targets, Attributes]
        simp only [ha, (hasEdge_iff.1 hedge).2.1, true_and, hslot, Option.some.injEq,
          exists_eq_left']
        cases s.targets.find? site with
        | none => simp
        | some t => simp
      · -- Without an edge no site has the node as a target.
        rw [if_neg hedge, eq_comm, List.filter_eq_nil_iff]
        intro site _ hb
        exact hedge (hg.target_edge (decide_eq_true_iff.1 hb)).2.2

/-- The nodes of a unit, which the index lists, are those that have the unit. -/
theorem WellFormed.nodesOf_eq (hg : WellFormed g) (u : CodeUnit) :
    CallGraph.nodesOf g u = g.nodes.filter fun n => n.unit = u := by
  -- Both lists ascend, so their members determine them.
  refine eq_of_ascending (hg.nodesWith_ascending (hg.byUnit_ascending u))
    (hg.nodes_ascending.filter _) fun n => ?_
  change n ∈ g.nodesWith _ ↔ _
  rw [hg.mem_nodesWith, hg.mem_byUnit, List.mem_filter, decide_eq_true_iff,
    hg.contains_iff_mem_nodes]
  constructor
  · rintro ⟨⟨m, hm, hunit⟩, hn⟩
    rw [hg.mem_nodes, hm, Option.some.injEq] at hn
    rw [← hn]
    exact ⟨hg.mem_nodes.2 (by rw [hg.id_eq hm]; exact hm), hunit⟩
  · rintro ⟨hn, hunit⟩
    exact ⟨⟨n, hg.mem_nodes.1 hn, hunit⟩, hn⟩

/-- The roots have the lowest numbers. -/
theorem WellFormed.kind_cases_of_mem (hg : WellFormed g) {n : Node} (hn : n ∈ g.nodes) :
    (∃ serial, n = ⟨serial, rootId, .fakeRoot, .everywhere, .fakeRoot⟩) ∨
      (∃ serial, n = ⟨serial, clinitId, .fakeWorldClinit, .everywhere, .fakeWorldClinit⟩) ∨
      (clinitId < n.id ∧ n.kind = .ordinary) := by
  have hin := hg.contains_iff_mem_nodes.2 hn
  rcases hg.node_cases hin with hroot | hclinit | ⟨h0, h1, hk⟩
  · exact Or.inl ⟨_, hroot⟩
  · exact Or.inr (Or.inl ⟨_, hclinit⟩)
  · refine Or.inr (Or.inr ⟨?_, hk⟩)
    rcases live_iff_exists.1 (live_of_contains hin) with ⟨s, hs⟩
    have hbound := (slot?_bounds hs).1
    simp only [rootId, clinitId] at h0 h1 ⊢
    omega

/-- A well-formed graph is lawful. From here on graphs are compared by the questions of
    the class, and slots are not looked at again. -/
theorem WellFormed.lawful (hg : WellFormed g) : CallGraph.Lawful g where
  ascending := hg.nodes_ascending
  kind_cases := hg.kind_cases_of_mem
  contains_iff := hg.contains_iff_mem_nodes
  -- The remaining laws are about lists, and each is read off the slots of the nodes.
  node?_eq_some_iff := by
    intro i n
    change g.node? i = some n ↔ n ∈ g.nodes ∧ n.id = i
    rw [hg.mem_nodes]
    constructor
    · intro hn
      have hid := hg.id_eq hn
      exact ⟨by rw [hid]; exact hn, hid⟩
    · rintro ⟨hn, rfl⟩
      exact hn
  fakeRoot_eq := rfl
  fakeWorldClinit_eq := rfl
  lookup_eq_some_iff := by
    intro u c n
    change g.lookup u c = some n ↔ n ∈ g.nodes ∧ _
    rw [hg.lookup_eq_some_iff, hg.mem_nodes]
  nodesOf_eq := hg.nodesOf_eq
  nodeCount_eq := hg.length_nodes.symm
  edge_left hab := hg.contains_iff_mem_nodes.1 (hasEdge_iff.1 hab).1
  succs_eq := by
    intro n
    refine eq_of_ascending (hg.succs_ascending n) (hg.nodes_ascending.filter _) fun m => ?_
    rw [List.mem_filter]
    change m ∈ g.succs n ↔ m ∈ g.nodes ∧ g.hasEdge n m
    rw [hg.mem_succs, hasEdge_iff, ← hg.contains_iff_mem_nodes]
    exact ⟨fun h => ⟨h.2.1, h⟩, fun h => h.2⟩
  preds_eq := by
    intro n
    refine eq_of_ascending (hg.preds_ascending n) (hg.nodes_ascending.filter _) fun m => ?_
    rw [List.mem_filter]
    change m ∈ g.preds n ↔ m ∈ g.nodes ∧ g.hasEdge m n
    rw [hg.mem_preds, hasEdge_iff, ← hg.contains_iff_mem_nodes]
    exact ⟨fun h => ⟨h.1, h⟩, fun h => h.2⟩
  succCount_eq n := (hg.length_succs n).symm
  predCount_eq n := (hg.length_preds n).symm
  callSites_nodup := hg.callSites_nodup
  targets_ascending := hg.targets_ascending
  target_edge := hg.target_edge
  sitesBetween_eq := hg.sitesBetween_eq
  entrypoints_nodup := by
    change (g.nodesWith g.entrypoints).Nodup
    rw [nodesWith]
    refine List.Nodup.filterMap ?_ hg.entry_nodup
    -- Different numbers have different nodes.
    intro i j n hi hj
    rw [← hg.id_eq hi, ← hg.id_eq hj]
  mem_of_mem_entrypoints hn := hg.contains_iff_mem_nodes.1 (hg.mem_nodesWith.1 hn).2

/-- A new node is listed last, since its number is the largest. -/
theorem nodes_create (g : Graph) (u : CodeUnit) (c : Context) (k : NodeKind) :
    (g.create u c k).1.nodes = g.nodes ++ [(g.create u c k).2] := by
  simp [nodes, create]

theorem Keeps.nodes_eq {g' : Graph} (h : Keeps g g') (hg : WellFormed g) (hg' : WellFormed g') :
    g'.nodes = g.nodes := by
  refine eq_of_ascending hg'.nodes_ascending hg.nodes_ascending fun n => ?_
  rw [← hg'.contains_iff_mem_nodes, ← hg.contains_iff_mem_nodes, h.contains_iff]

end Graph

end CallAtlas
