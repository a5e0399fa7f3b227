import CallAtlas.Proofs.Snapshot.Replay

/-!
# Decoding Undoes Encoding

A graph that was stored and rebuilt is the graph that was stored, apart from its
numbers. After all records of its document are read, a draft holds a node for each node
of the graph and calls for its edges, under new numbers. Numbers were given in order and
none twice, so what holds of the new numbers holds of the old nodes, and lists of nodes
are in the same order.

A view may hide a root. Rebuilding starts from a graph that has both, so a hidden root
comes back, with nothing but itself.

## Theorems

* `CallGraph.Replayed.calls_renumbered_iff`: The edges of the rebuilt graph.
* `CallGraph.Replayed.targets_renumbered`: The targets of its sites.
* `CallGraph.Replayed.restored`: The rebuilt graph is the one that was stored.
* `CallGraph.decode_encode`: Decoding undoes encoding.
-/

namespace CallAtlas

namespace CallGraph

open Document (Draft)

variable {G : Type} [CallGraph G] {serial : Nat} {g : G} {d : Draft}

namespace Replayed

theorem callSites_renumbered {linked : List (Node × Node)} {entered : List Node}
    (hd : Replayed serial g (nodes g) (nodes g) linked entered d) {n : Node} (hn : n ∈ nodes g) :
    d.graph.callSites (renumbered serial g n) = callSites g n := by
  rw [Graph.callSites_eq (hd.contains hn)]
  exact hd.sitesAt_eq hn

theorem node?_renumbered {linked : List (Node × Node)} {entered : List Node}
    (hd : Replayed serial g (nodes g) (nodes g) linked entered d) {n : Node} (hn : n ∈ nodes g) :
    d.graph.node? (renumbered serial g n).id = some (renumbered serial g n) :=
  Graph.contains_iff.1 (hd.contains hn)

variable (hg : Lawful g)
  (hd : Replayed serial g (nodes g) (nodes g) (edges g) (entrypoints g) d)

include hg hd

/-- The rebuilt graph has the edges of the stored one. No two nodes come back with one
    number, so an edge between the new numbers comes from one edge only. -/
theorem calls_renumbered_iff {a b : Node} (ha : a ∈ nodes g) (hb : b ∈ nodes g) :
    d.graph.Calls (renumbered serial g a).id (renumbered serial g b).id ↔ hasEdge g a b := by
  rw [hd.calls_iff]
  constructor
  · rintro ⟨e, he, hae, hbe⟩
    rcases hg.mem_edges.1 he with ⟨he₁, he₂, hedge⟩
    rw [hg.renumbered_inj ha he₁ hae, hg.renumbered_inj hb he₂ hbe]
    exact hedge
  · intro hedge
    exact ⟨(a, b), hg.mem_edges.2 ⟨ha, hb, hedge⟩, rfl, rfl⟩

/-- The rebuilt graph attributes what the stored one does. -/
theorem attributes_renumbered_iff {a b : Node} (ha : a ∈ nodes g) (hb : b ∈ nodes g)
    {site : CallSite} :
    d.graph.Attributes (renumbered serial g a).id site (renumbered serial g b).id ↔
      b ∈ targets g a site := by
  -- A document names the sites of an edge, and these are the sites with the callee for a
  -- target.
  have hbetween : site ∈ sitesBetween g a b ↔ b ∈ targets g a site := by
    rw [hg.sitesBetween_eq, List.mem_filter, decide_eq_true_iff]
    exact ⟨fun h => h.2, fun h => ⟨(hg.target_edge h).1, h⟩⟩
  rw [hd.attributes_iff, ← hbetween]
  constructor
  · rintro ⟨e, he, hsite, hae, hbe⟩
    rcases hg.mem_edges.1 he with ⟨he₁, he₂, _⟩
    rw [hg.renumbered_inj ha he₁ hae, hg.renumbered_inj hb he₂ hbe]
    exact hsite
  · intro hsite
    have hedge := (hg.target_edge (hbetween.1 hsite)).2.2
    exact ⟨(a, b), hg.mem_edges.2 ⟨ha, hb, hedge⟩, hsite, rfl, rfl⟩

theorem hasEdge_renumbered {a b : Node} (ha : a ∈ nodes g) (hb : b ∈ nodes g) :
    d.graph.hasEdge (renumbered serial g a) (renumbered serial g b) = hasEdge g a b := by
  rw [Bool.eq_iff_iff, Graph.hasEdge_iff, hd.calls_renumbered_iff hg ha hb]
  exact ⟨fun h => h.2.2, fun h => ⟨hd.contains ha, hd.contains hb, h⟩⟩

/-- The targets of a site are in the same order too, since the numbers are. -/
theorem targets_renumbered {n : Node} (hn : n ∈ nodes g) (site : CallSite) :
    d.graph.targets (renumbered serial g n) site =
      (targets g n site).map (renumbered serial g) := by
  have htarget : ∀ {m}, m ∈ targets g n site → m ∈ nodes g := fun hm => (hg.target_edge hm).2.1
  refine eq_of_ascending (hd.wellFormed.targets_ascending _ site) ?_ fun m => ?_
  · rw [List.pairwise_map]
    exact (hg.targets_ascending n site).imp_of_mem fun ha hb hab =>
      hg.renumbered_lt serial (htarget ha) (htarget hb) hab
  · rw [hd.wellFormed.mem_targets, List.mem_map]
    constructor
    · rintro ⟨_, hm, hat⟩
      -- A target is the end of an edge that was read.
      rcases hd.attributes_iff.1 hat with ⟨e, he, _, _, hid⟩
      have he₂ := (hg.mem_edges.1 he).2.1
      have hmeq := Graph.eq_of_contains hm (hd.contains he₂) hid
      rw [hmeq] at hat ⊢
      exact ⟨e.2, (hd.attributes_renumbered_iff hg hn he₂).1 hat, rfl⟩
    · rintro ⟨b, hb, rfl⟩
      have hbn := htarget hb
      exact ⟨hd.contains hn, hd.contains hbn, (hd.attributes_renumbered_iff hg hn hbn).2 hb⟩

/-- The sites of an edge are the same, in the same order. -/
theorem sitesBetween_renumbered {a b : Node} (ha : a ∈ nodes g) (hb : b ∈ nodes g) :
    d.graph.sitesBetween (renumbered serial g a) (renumbered serial g b) = sitesBetween g a b := by
  rw [hd.wellFormed.sitesBetween_eq, hg.sitesBetween_eq, hd.callSites_renumbered ha]
  refine List.filter_congr fun site _ => ?_
  rw [decide_eq_decide, hd.targets_renumbered hg ha, List.mem_map]
  constructor
  · rintro ⟨c, hc, hcb⟩
    rw [← hg.renumbered_inj (hg.target_edge hc).2.1 hb (congrArg Node.id hcb)]
    exact hc
  · exact fun h => ⟨b, h, rfl⟩

/-- Entrypoints come back in the order they had. -/
theorem entrypoints_renumbered :
    entrypoints d.graph = (entrypoints g).map (renumbered serial g) := by
  change d.graph.nodesWith d.graph.entrypoints = _
  rw [Graph.nodesWith, hd.entrypoints_eq, List.filterMap_map, ← List.filterMap_eq_map]
  refine List.filterMap_congr fun n hn => ?_
  exact hd.node?_renumbered (hg.mem_of_mem_entrypoints hn)

/-- A node that no stored node comes back as has no sites and no edges. -/
theorem bare_of_forall_ne {m : Node} (hm : d.graph.contains m)
    (hne : ∀ n ∈ nodes g, renumbered serial g n ≠ m) :
    d.graph.callSites m = [] ∧ d.graph.succs m = [] ∧ d.graph.preds m = [] := by
  have hid : ∀ n ∈ nodes g, (renumbered serial g n).id ≠ m.id :=
    fun n hn h => hne n hn (Graph.eq_of_contains (hd.contains hn) hm h)
  refine ⟨?_, List.eq_nil_iff_forall_not_mem.2 fun b hb => ?_,
    List.eq_nil_iff_forall_not_mem.2 fun a ha => ?_⟩
  · rw [Graph.callSites_eq hm]
    exact hd.sitesAt_else hid
  · rcases hd.calls_iff.1 (hd.wellFormed.mem_succs.1 hb).2.2 with ⟨e, he, hsrc, _⟩
    exact hid e.1 (hg.mem_edges.1 he).1 hsrc.symm
  · rcases hd.calls_iff.1 (hd.wellFormed.mem_preds.1 ha).2.2 with ⟨e, he, _, hdst⟩
    exact hid e.2 (hg.mem_edges.1 he).2.1 hdst.symm

/-- The rebuilt graph is the one that was stored. What the draft holds is said in terms
    of numbers, and here it is said in terms of the interface. -/
theorem restored : Restored g (renumbered serial g) d.graph where
  root_eq {n} hn := by
    rw [hg.fakeRoot_eq, hg.node?_eq_some_iff] at hn
    have hnode := hd.node?_renumbered hn.1
    rw [hg.renumbered_root serial hn.1 hn.2] at hnode
    exact hnode
  clinit_eq {n} hn := by
    rw [hg.fakeWorldClinit_eq, hg.node?_eq_some_iff] at hn
    have hnode := hd.node?_renumbered hn.1
    rw [hg.renumbered_clinit serial hn.1 hn.2] at hnode
    exact hnode
  ordinary_id := hg.renumbered_getElem? serial
  ref_eq := hg.renumbered_ref serial
  context_eq := hg.renumbered_context serial
  kind_eq _ := renumbered_kind serial g _
  back_mem hn := hd.wellFormed.contains_iff_mem_nodes.1 (hd.contains hn)
  back_inj ha hb hab := hg.renumbered_inj ha hb (congrArg Node.id hab)
  callSites_eq := hd.callSites_renumbered
  hasEdge_eq := hd.hasEdge_renumbered hg
  targets_eq := hd.targets_renumbered hg
  sitesBetween_eq := hd.sitesBetween_renumbered hg
  entrypoints_eq := hd.entrypoints_renumbered hg
  added {m} hm := by
    have hin := hd.wellFormed.contains_iff_mem_nodes.2 hm
    by_cases hback : ∃ n ∈ nodes g, renumbered serial g n = m
    · exact Or.inl hback
    · -- A node that nothing comes back as can only be one of the roots.
      have hne : ∀ n ∈ nodes g, renumbered serial g n ≠ m := fun n hn h => hback ⟨n, hn, h⟩
      refine Or.inr ⟨?_, hd.bare_of_forall_ne hg hin hne⟩
      rcases hd.contains_iff.1 hin with rfl | rfl | ⟨n, hn, rfl⟩
      · simp [rootNode]
      · simp [clinitNode]
      · exact absurd rfl (hne n hn)

end Replayed

/-- Decoding undoes encoding, up to numbers. Both roots of the result are there, and every
    other node is one that was stored. Without gaps the numbers are the same too. -/
theorem decode_encode (hg : Obtained g) (hs : Storable g) (serial : Nat) :
    ∃ g', Document.decode serial (Document.encode g) = .ok g' ∧ g'.Obtainable ∧
      Restored g (renumbered serial g) g' ∧
      (Gapless g → ∀ n ∈ nodes g, (renumbered serial g n).id = n.id) := by
  have hlawful := hg.lawful
  rcases replayed_encode hlawful hs serial with ⟨d, hdecode, hd⟩
  exact ⟨d.graph, hdecode, hd.obtainable, hd.restored hlawful,
    fun hgap _ hn => hlawful.renumbered_id_of_gapless hgap serial hn⟩

/-- A view of three nodes that hides a root, a callee and so the targets of two sites, and
    the whole graph, whose numbers have no gaps. -/
theorem decode_encode_letters :
    let v := View.of View.letters (IdSet.ofList [0, 2, 4]) Table.empty
    (∃ g', Document.decode 1 (Document.encode v) = .ok g' ∧ Restored v (renumbered 1 v) g') ∧
      (nodes v).map (fun n => (renumbered 1 v n).id) = [0, 2, 3] ∧
      ∀ n ∈ nodes View.letters, (renumbered 1 View.letters n).id = n.id := by
  have hg : View.letters.Obtainable := ⟨0, _, rfl⟩
  have hbound : ∀ n ∈ nodes View.letters, 0 ≤ n.id ∧ n.id ≤ 4 := by decide
  have hgap : Gapless View.letters := by
    refine ⟨by decide, by decide, fun a ha b hb i hai hib => ?_⟩
    have hi : i = 0 ∨ i = 1 ∨ i = 2 ∨ i = 3 ∨ i = 4 := by
      have := hbound a ha
      have := hbound b hb
      omega
    rcases hi with rfl | rfl | rfl | rfl | rfl <;> decide
  let v := View.of View.letters (IdSet.ofList [0, 2, 4]) Table.empty
  have hv : Obtained v := .view hg
  rcases decode_encode hv (by decide) 1 with ⟨g', hdecode, _, hrestored, _⟩
  rcases decode_encode (.graph hg) (by decide) 1 with ⟨_, _, _, _, hnumbers⟩
  exact ⟨⟨g', hdecode, hrestored⟩, by decide, hnumbers hgap⟩

end CallGraph

end CallAtlas
