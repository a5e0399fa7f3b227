import CallAtlas.Proofs.WellFormed

/-!
# Answers of a Well-Formed Graph

A query takes a node, finds its slot, and lists the nodes whose numbers the slot
holds. In a well-formed graph none of these lookups can miss, so each answer is a
statement about live numbers and edges alone. This module makes that statement for
the queries that others build on.

Arguments are arbitrary nodes. A node that was removed, or that belongs to another
graph, differs from whatever stands in the slot of its number, and
`slotOf?_eq_some_iff` is the one place where this is settled.

## Theorems

* `Graph.slotOf?_eq_some_iff`: Only a node of the graph finds its slot.
* `Graph.contains_iff`: A node is in the graph if its number names it.
* `Graph.Rooted.node_cases`: A node is one of the two roots or ordinary.
* `Graph.Numbered.mem_nodes`: The nodes are those that their numbers name.
* `Graph.Numbered.nodes_ascending`: The nodes ascend by number.
* `Graph.WellFormed.lookup_eq_some_iff`: A node is found by what it is.
* `Graph.Numbered.mem_succs`, `Graph.Numbered.mem_targets`: The callees of a node
  and the targets of a site.
* `Graph.WellFormed.countEdges_eq`: Counting the edges gives the counter.
-/

namespace CallAtlas

namespace Graph

/-- Only a node of the graph finds its slot. -/
theorem slotOf?_eq_some_iff {g : Graph} {n : Node} {s : Slot} :
    g.slotOf? n = some s ↔ g.slot? n.id = some s ∧ s.node = n := by
  rw [slotOf?, Option.filter_eq_some_iff, decide_eq_true_iff]

/-- A node is one of the graph if the slot of its number holds that very node. A node of
    another graph may have the same number, but not the same serial. -/
theorem contains_iff {g : Graph} {n : Node} : g.contains n ↔ g.node? n.id = some n := by
  rw [contains, Option.isSome_iff_exists, node?_eq_some_iff]
  simp only [slotOf?_eq_some_iff]

theorem Keeps.contains_iff {g g' : Graph} (h : Keeps g g') {n : Node} :
    g'.contains n ↔ g.contains n := by
  rw [Graph.contains_iff, Graph.contains_iff, h.node?]

/-- Numbers tell the nodes of a graph apart. -/
theorem eq_of_contains {g : Graph} {n m : Node} (hn : g.contains n) (hm : g.contains m)
    (h : n.id = m.id) : n = m := by
  rw [contains_iff] at hn hm
  rw [h, hm, Option.some.injEq] at hn
  exact hn.symm

/-- Every live number is the number of a node. -/
theorem Numbered.exists_contains {g : Graph} (hg : Numbered g) {i : Int} (h : g.Live i) :
    ∃ n, g.contains n ∧ n.id = i := by
  rcases Option.isSome_iff_exists.1 (live_iff_node?.1 h) with ⟨n, hn⟩
  have hid := hg.id_eq hn
  exact ⟨n, contains_iff.2 (by rw [hid]; exact hn), hid⟩

theorem live_of_contains {g : Graph} {n : Node} (h : g.contains n) : g.Live n.id := by
  rw [live_iff_node?, contains_iff.1 h]
  rfl

/-- A node is one of the two roots or ordinary. -/
theorem Rooted.node_cases {g : Graph} (hg : Rooted g) {n : Node} (hn : g.contains n) :
    n = ⟨g.serial, rootId, .fakeRoot, .everywhere, .fakeRoot⟩ ∨
      n = ⟨g.serial, clinitId, .fakeWorldClinit, .everywhere, .fakeWorldClinit⟩ ∨
      (n.id ≠ rootId ∧ n.id ≠ clinitId ∧ n.kind = .ordinary) := by
  rw [contains_iff] at hn
  by_cases h0 : n.id = rootId
  · rw [h0, hg.root, Option.some.injEq] at hn
    exact Or.inl hn.symm
  · by_cases h1 : n.id = clinitId
    · rw [h1, hg.clinit, Option.some.injEq] at hn
      exact Or.inr (Or.inl hn.symm)
    · exact Or.inr (Or.inr ⟨h0, h1, hg.ordinary hn h0 h1⟩)

/-- The number of a node tells its kind. -/
theorem Rooted.kind_cases {g : Graph} (hg : Rooted g) {n : Node} (hn : g.contains n) :
    (n.id = rootId ∧ n.kind = .fakeRoot ∧ n.unit = .fakeRoot) ∨
      (n.id = clinitId ∧ n.kind = .fakeWorldClinit ∧ n.unit = .fakeWorldClinit) ∨
      (n.id ≠ rootId ∧ n.id ≠ clinitId ∧ n.kind = .ordinary) := by
  rcases hg.node_cases hn with rfl | rfl | hother
  · exact Or.inl ⟨rfl, rfl, rfl⟩
  · exact Or.inr (Or.inl ⟨rfl, rfl, rfl⟩)
  · exact Or.inr (Or.inr hother)

/-- The kind of a root tells its number, so an ordinary node is told from both by its number. -/
theorem Rooted.kind_eq_fakeRoot_iff {g : Graph} (hg : Rooted g) {n : Node} (hn : g.contains n) :
    n.kind = .fakeRoot ↔ n.id = rootId := by
  rcases hg.kind_cases hn with ⟨hi, hk, _⟩ | ⟨hi, hk, _⟩ | ⟨hi, _, hk⟩
  · simp [hi, hk]
  · simp [hi, hk, rootId, clinitId]
  · simp [hi, hk]

theorem Rooted.kind_eq_fakeWorldClinit_iff {g : Graph} (hg : Rooted g) {n : Node}
    (hn : g.contains n) : n.kind = .fakeWorldClinit ↔ n.id = clinitId := by
  rcases hg.kind_cases hn with ⟨hi, hk, _⟩ | ⟨hi, hk, _⟩ | ⟨_, hi, hk⟩
  · simp [hi, hk, rootId, clinitId]
  · simp [hi, hk]
  · simp [hi, hk]

/-- The slots are stored by position, and numbers of nodes are looked up as integers. -/
theorem getElem?_slots (g : Graph) (i : Nat) : (g.slots[i]?).join = g.slot? i := by
  rw [slot?, if_neg (by omega), Int.toNat_natCast]

/-- The listed nodes are those that are found under their own numbers. -/
theorem Numbered.mem_nodes {g : Graph} (hg : Numbered g) {n : Node} :
    n ∈ g.nodes ↔ g.node? n.id = some n := by
  rw [nodes, List.mem_filterMap]
  constructor
  · rintro ⟨o, ho, hn⟩
    rcases List.mem_iff_getElem?.1 ho with ⟨i, hi⟩
    rw [Array.getElem?_toList] at hi
    -- The position in the array is the number of the node.
    have hslot : g.slot? i = o := by
      rw [← getElem?_slots, hi]
      rfl
    have hnode : g.node? i = some n := by
      rw [node?, hslot]
      exact hn
    rw [hg.id_eq hnode]
    exact hnode
  · intro hn
    rcases node?_eq_some_iff.1 hn with ⟨s, hs, hsn⟩
    have hbound := slot?_bounds hs
    refine ⟨some s, ?_, by rw [Option.map_some, hsn]⟩
    rw [List.mem_iff_getElem?]
    refine ⟨n.id.toNat, ?_⟩
    rw [Array.getElem?_toList]
    have hjoin := getElem?_slots g n.id.toNat
    rw [Int.toNat_of_nonneg hbound.1, hs] at hjoin
    exact Option.join_eq_some_iff.1 hjoin

/-- The nodes ascend by number. -/
theorem Numbered.nodes_ascending {g : Graph} (hg : Numbered g) :
    g.nodes.Pairwise fun a b => a.id < b.id := by
  -- A node stands in the slot of its number, so positions are numbers.
  have hid : ∀ (i : Nat) (h : i < g.slots.toList.length) (n : Node),
      (g.slots.toList[i].map fun s => s.node) = some n → n.id = i := by
    intro i h n hn
    refine hg.id_eq ?_
    have hget : g.slots[i]? = some g.slots.toList[i] := by
      rw [← Array.getElem?_toList]
      exact List.getElem?_eq_getElem h
    rw [node?, ← getElem?_slots, hget]
    exact hn
  rw [nodes, List.pairwise_filterMap, List.pairwise_iff_getElem]
  intro i j hi hj hij a ha b hb
  rw [hid i hi a ha, hid j hj b hb]
  omega

theorem Numbered.contains_iff_mem_nodes {g : Graph} (hg : Numbered g) {n : Node} :
    g.contains n ↔ n ∈ g.nodes := by
  rw [contains_iff, hg.mem_nodes]

/-- The node of a unit in a context is the one that has both. -/
theorem WellFormed.lookup_eq_some_iff {g : Graph} (hg : WellFormed g) {u : CodeUnit} {c : Context}
    {n : Node} : g.lookup u c = some n ↔ g.node? n.id = some n ∧ n.unit = u ∧ n.context = c := by
  rw [lookup, Option.map_eq_some_iff]
  constructor
  · rintro ⟨s, hs, rfl⟩
    rcases Option.bind_eq_some_iff.1 hs with ⟨i, hi, hslot⟩
    -- The index has been filled with the pairs of the nodes.
    rcases hg.index_iff.1 hi with ⟨m, hm, hu, hc⟩
    have hnode : g.node? i = some s.node := node?_eq_some_iff.2 ⟨s, hslot, rfl⟩
    rw [hm, Option.some.injEq] at hnode
    rw [← hnode, hg.id_eq hm]
    exact ⟨hm, hu, hc⟩
  · rintro ⟨hn, hu, hc⟩
    rcases node?_eq_some_iff.1 hn with ⟨s, hs, hsn⟩
    refine ⟨s, ?_, hsn⟩
    rw [hg.index_iff.2 ⟨n, hn, hu, hc⟩, Option.bind_some]
    exact hs

theorem callSites_eq {g : Graph} {n : Node} (h : g.contains n) :
    g.callSites n = g.sitesAt n.id := by
  rcases Option.isSome_iff_exists.1 h with ⟨s, hs⟩
  rw [callSites, hs, sitesAt, (slotOf?_eq_some_iff.1 hs).1]

theorem callSites_of_not_contains {g : Graph} {n : Node} (h : ¬ g.contains n) :
    g.callSites n = [] := by
  rw [contains, Bool.not_eq_true, Option.isSome_eq_false_iff, Option.isNone_iff_eq_none] at h
  rw [callSites, h]

/-- Turning numbers into nodes drops those that are free and keeps the rest. -/
theorem Numbered.mem_nodesWith {g : Graph} (hg : Numbered g) {ids : List Int} {m : Node} :
    m ∈ g.nodesWith ids ↔ m.id ∈ ids ∧ g.contains m := by
  rw [nodesWith, List.mem_filterMap, contains_iff]
  constructor
  · rintro ⟨i, hi, hm⟩
    have hid := hg.id_eq hm
    subst hid
    exact ⟨hi, hm⟩
  · rintro ⟨hi, hm⟩
    exact ⟨m.id, hi, hm⟩

/-- Choosing among the nodes of a list of numbers is choosing among the numbers. -/
theorem Numbered.filter_nodesWith {g : Graph} (hg : Numbered g) (p : Int → Bool) (ids : List Int) :
    ((g.nodesWith ids).filter fun n => p n.id) = g.nodesWith (ids.filter p) := by
  induction ids with
  | nil => rfl
  | cons i rest ih =>
      unfold nodesWith at ih ⊢
      cases hn : g.node? i with
      -- A free number is dropped on both sides, whether it is chosen or not.
      | none =>
          rw [List.filterMap_cons_none hn, ih]
          by_cases hp : p i
          · rw [List.filter_cons_of_pos hp, List.filterMap_cons_none hn]
          · rw [List.filter_cons_of_neg hp]
      | some n =>
          have hid := hg.id_eq hn
          rw [List.filterMap_cons_some hn]
          by_cases hp : p i
          · rw [List.filter_cons_of_pos (by rw [hid]; exact hp), List.filter_cons_of_pos hp,
              List.filterMap_cons_some hn, ih]
          · rw [List.filter_cons_of_neg (by rw [hid]; exact hp), List.filter_cons_of_neg hp, ih]

/-- Nodes listed by ascending numbers ascend. -/
theorem Numbered.nodesWith_ascending {g : Graph} (hg : Numbered g) {ids : List Int}
    (hids : ids.Pairwise (· < ·)) : (g.nodesWith ids).Pairwise fun a b => a.id < b.id := by
  rw [nodesWith, List.pairwise_filterMap]
  refine hids.imp fun hij a ha b hb => ?_
  rw [hg.id_eq ha, hg.id_eq hb]
  exact hij

/-- The callees of a node are the nodes to which an edge leads from it. -/
theorem Numbered.mem_succs {g : Graph} (hg : Numbered g) {n m : Node} :
    m ∈ g.succs n ↔ g.contains n ∧ g.contains m ∧ g.Calls n.id m.id := by
  unfold succs contains
  cases hs : g.slotOf? n with
  | none => simp
  | some s =>
      rw [calls_iff_mem_succs (slotOf?_eq_some_iff.1 hs).1]
      simp only [hg.mem_nodesWith, IdSet.mem_toList, Option.isSome_some, true_and, contains]
      exact and_comm

/-- The callers of a node are the nodes from which an edge leads to it. They are read
    off the slot of the node, so this needs both ends of an edge to store it. -/
theorem WellFormed.mem_preds {g : Graph} (hg : WellFormed g) {n m : Node} :
    m ∈ g.preds n ↔ g.contains m ∧ g.contains n ∧ g.Calls m.id n.id := by
  rw [hg.calls_iff]
  unfold preds contains
  cases hs : g.slotOf? n with
  | none => simp
  | some s =>
      rw [calledBy_iff_mem_preds (slotOf?_eq_some_iff.1 hs).1]
      simp only [hg.mem_nodesWith, IdSet.mem_toList, Option.isSome_some, true_and, contains]
      exact and_comm

/-- An edge is asked for by its nodes, and both have to be of the graph. -/
theorem hasEdge_iff {g : Graph} {a b : Node} :
    g.hasEdge a b ↔ g.contains a ∧ g.contains b ∧ g.Calls a.id b.id := by
  unfold hasEdge
  cases hs : g.slotOf? a with
  | none => simp [contains, hs]
  | some s =>
      rw [calls_iff_mem_succs (slotOf?_eq_some_iff.1 hs).1]
      simp [contains, hs]

/-- The targets of a site are the nodes attributed to it. -/
theorem Numbered.mem_targets {g : Graph} (hg : Numbered g) {n m : Node} {site : CallSite} :
    m ∈ g.targets n site ↔ g.contains n ∧ g.contains m ∧ g.Attributes n.id site m.id := by
  unfold targets contains Attributes
  cases hs : g.slotOf? n with
  | none => simp
  | some s =>
      simp only [Option.bind_some, (slotOf?_eq_some_iff.1 hs).1, Option.some.injEq, exists_eq_left']
      cases ht : s.targets.find? site with
      | none => simp
      | some t =>
          simp only [hg.mem_nodesWith, IdSet.mem_toList, Option.isSome_some, true_and,
            Option.some.injEq, exists_eq_left', contains]
          exact and_comm

/-- The numbers of the callees of a node. -/
def calleesOf (g : Graph) (n : Node) : List Int :=
  match g.slotOf? n with
  | some s => s.succs.toList
  | none => []

/-- The numbers of the callees are those that edges lead to, whether or not they are live. -/
theorem mem_calleesOf {g : Graph} {n : Node} (hn : g.contains n) {d : Int} :
    d ∈ g.calleesOf n ↔ g.Calls n.id d := by
  rcases Option.isSome_iff_exists.1 hn with ⟨s, hs⟩
  rw [calleesOf, hs, Calls]
  simp only [IdSet.mem_toList, (slotOf?_eq_some_iff.1 hs).1, Option.some.injEq, exists_eq_left']

theorem calleesOf_nodup (g : Graph) (n : Node) : (g.calleesOf n).Nodup := by
  unfold calleesOf
  split
  · next s _ => exact s.succs.nodup_toList
  · exact List.nodup_nil

/-- Callees are counted by their numbers, without looking at their slots. -/
theorem succCount_eq (g : Graph) (n : Node) : g.succCount n = (g.calleesOf n).length := by
  unfold succCount calleesOf
  cases g.slotOf? n <;> rfl

/-- Counting the edges by their callers gives the counter. The pairs that are counted
    are listed, and the list has every edge of the graph once. -/
theorem WellFormed.countEdges_eq {g : Graph} (hg : WellFormed g) :
    (CallGraph.countEdges g : Int) = g.edges := by
  let pairs := g.nodes.flatMap fun n => (g.calleesOf n).map fun d => (n.id, d)
  have hlength : pairs.length = CallGraph.countEdges g := by
    rw [List.length_flatMap, CallGraph.countEdges]
    change (g.nodes.map fun n => ((g.calleesOf n).map fun d => (n.id, d)).length).foldr (· + ·) 0 =
      (g.nodes.map g.succCount).foldr (· + ·) 0
    congr 2
    funext n
    rw [List.length_map, succCount_eq]
  have hmem : ∀ p, p ∈ pairs ↔ p ∈ g.edgeSet := by
    rintro ⟨a, b⟩
    simp only [pairs, List.mem_flatMap, List.mem_map, Prod.mk.injEq, mem_edgeSet]
    constructor
    · rintro ⟨n, hn, d, hd, rfl, rfl⟩
      exact (mem_calleesOf (hg.contains_iff_mem_nodes.2 hn)).1 hd
    · intro hab
      rcases live_iff_exists.1 hab.live_left with ⟨s, hs⟩
      have hnode : g.node? a = some s.node := node?_eq_some_iff.2 ⟨s, hs, rfl⟩
      have hid := hg.id_eq hnode
      have hin : s.node ∈ g.nodes := by
        rw [hg.mem_nodes, hid]
        exact hnode
      refine ⟨s.node, hin, b, ?_, hid, rfl⟩
      rw [mem_calleesOf (hg.contains_iff_mem_nodes.2 hin), hid]
      exact hab
  have hnodup : pairs.Nodup := by
    rw [List.nodup_flatMap]
    refine ⟨fun n _ => (g.calleesOf_nodup n).map fun _ _ h => (Prod.mk.inj h).2, ?_⟩
    -- Pairs of different callers differ in their first number.
    refine hg.nodes_ascending.imp fun {a b} hab => ?_
    rintro ⟨x, y⟩ hx hy
    rcases List.mem_map.1 hx with ⟨_, _, hx'⟩
    rcases List.mem_map.1 hy with ⟨_, _, hy'⟩
    have hxa := (Prod.mk.inj hx').1
    have hyb := (Prod.mk.inj hy').1
    omega
  have hset : g.edgeSet = (pairs.toFinset : Set (Int × Int)) := by
    ext p
    rw [List.coe_toFinset, Set.mem_ofPred_eq, hmem]
  rw [hg.edges_eq, hset, Set.ncard_coe_finset, List.toFinset_card_of_nodup hnodup, hlength]

end Graph

end CallAtlas
