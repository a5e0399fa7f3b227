import CallAtlas.Proofs.Prune.Views

/-!
# The Answers of a View Fit Together

A view filters each answer of its graph in its own way. Asking for an edge looks at both
ends, at the overlay and at the graph; the callees of a node are filtered by what is kept
and what is hidden, its callers by the same with the ends swapped, and the list of all
nodes by what is kept alone. A filter holds bare numbers, so it may keep numbers that were
never handed out, or hide edges of nodes that are gone, and it may leave out the roots.
None of this makes two answers contradict each other.

That a view of a lawful graph is lawful settles most of it. What remains are walks over all
edges. A walk goes through the callers in order and through the callees of each, so it meets
the edges in the order of their numbers, first of the caller and then of the callee, and each
once. Listing the same edges by callee gives a permutation of the walk, hence counting by
callee gives the same number.

## Main definitions

* `CallGraph.Precedes`: One edge comes before another in the order of numbers.
* `CallGraph.edgesByCallee`: The edges, by callee and then by caller.

## Theorems

* `CallGraph.visitEdges_of_unstopped`: A walk that is not stopped goes through all edges.
* `CallGraph.Lawful.edges_ordered`: A walk meets the edges in the order of their numbers.
* `CallGraph.Lawful.countEdges_eq_predCount`: Counting by callee counts all edges.
* `View.queries_coherent`: The answers of a view fit together, whatever its filter.
-/

namespace CallAtlas

namespace CallGraph

variable {G : Type} [CallGraph G] {g : G}

/-! ## Walks over a lawful graph -/

/-- A walk over a list that is not stopped goes to its end. -/
theorem visitList_of_unstopped {σ : Type} (f : σ → Node → Node → σ) (l : List (Node × Node)) (s : σ) :
    visitList (fun s a b => (f s a b, false)) l s = (l.foldl (fun s e => f s e.1 e.2) s, false) := by
  induction l generalizing s with
  | nil => rfl
  | cons e rest ih =>
      rw [visitList, List.foldl_cons]
      exact ih (f s e.1 e.2)

/-- A walk that is not stopped goes through all edges. -/
theorem visitEdges_of_unstopped {σ : Type} (f : σ → Node → Node → σ) (s : σ) :
    visitEdges g (fun s a b => (f s a b, false)) s =
      ((edges g).foldl (fun s e => f s e.1 e.2) s, false) :=
  visitList_of_unstopped f (edges g) s

/-- One edge comes before another in the order of numbers, that of the caller first. -/
def Precedes (d e : Node × Node) : Prop :=
  d.1.id < e.1.id ∨ (d.1.id = e.1.id ∧ d.2.id < e.2.id)

theorem Precedes.ne {d e : Node × Node} (h : Precedes d e) : d ≠ e := by
  rintro rfl
  unfold Precedes at h
  omega

/-- A walk meets the edges in the order of their numbers. -/
theorem Lawful.edges_ordered (hg : Lawful g) : (edges g).Pairwise Precedes := by
  rw [edges, List.pairwise_flatMap]
  constructor
  · -- The callees of one node ascend.
    intro src _
    have hsuccs : (succs g src).Pairwise fun a b => a.id < b.id := by
      rw [hg.succs_eq]
      exact hg.ascending.filter _
    rw [List.pairwise_map]
    exact hsuccs.imp fun hab => Or.inr ⟨rfl, hab⟩
  · -- All edges of one caller come before those of the next.
    refine hg.ascending.imp fun {src src'} hlt d hd e he => ?_
    rcases List.mem_map.1 hd with ⟨_, _, rfl⟩
    rcases List.mem_map.1 he with ⟨_, _, rfl⟩
    exact Or.inl hlt

theorem Lawful.edges_nodup (hg : Lawful g) : (edges g).Nodup :=
  hg.edges_ordered.imp Precedes.ne

/-! ## Counting by callee -/

/-- The edges, by callee and then by caller. -/
def edgesByCallee (g : G) : List (Node × Node) :=
  (nodes g).flatMap fun dst => (preds g dst).map fun src => (src, dst)

/-- The list by callee is as long as the counts of callers come to. -/
theorem Lawful.length_edgesByCallee (hg : Lawful g) :
    (edgesByCallee g).length = ((nodes g).map (predCount g)).foldr (· + ·) 0 := by
  unfold edgesByCallee
  induction nodes g with
  | nil => rfl
  | cons n rest ih =>
      rw [List.flatMap_cons, List.length_append, List.length_map, ih, ← hg.predCount_eq]
      rfl

/-- The list by callee has the edges that the graph has. -/
theorem Lawful.mem_edgesByCallee (hg : Lawful g) {e : Node × Node} :
    e ∈ edgesByCallee g ↔ e.1 ∈ nodes g ∧ e.2 ∈ nodes g ∧ hasEdge g e.1 e.2 := by
  rcases e with ⟨a, b⟩
  simp only [edgesByCallee, List.mem_flatMap, List.mem_map, Prod.mk.injEq, hg.preds_eq,
    List.mem_filter]
  constructor
  · rintro ⟨dst, hdst, src, ⟨hsrc, hedge⟩, rfl, rfl⟩
    exact ⟨hsrc, hdst, hedge⟩
  · rintro ⟨ha, hb, hedge⟩
    exact ⟨b, hb, a, ⟨ha, hedge⟩, rfl, rfl⟩

/-- The list by callee has no edge twice. -/
theorem Lawful.edgesByCallee_nodup (hg : Lawful g) : (edgesByCallee g).Nodup := by
  rw [edgesByCallee, List.nodup_flatMap]
  constructor
  · intro dst _
    have hpreds : (preds g dst).Nodup := by
      rw [hg.preds_eq]
      exact nodup_of_ascending (hg.ascending.filter _)
    exact hpreds.map fun _ _ h => (Prod.mk.inj h).1
  · -- Edges of different callees differ in their second end.
    refine hg.ascending.imp fun {dst dst'} hlt e hd he => ?_
    rcases List.mem_map.1 hd with ⟨_, _, rfl⟩
    rcases List.mem_map.1 he with ⟨_, _, hsame⟩
    have hdst : dst' = dst := (Prod.mk.inj hsame).2
    rw [hdst] at hlt
    omega

/-- Counting by callee counts all edges. The two lists are in different orders, but have
    the same members and none of them twice. -/
theorem Lawful.countEdges_eq_predCount (hg : Lawful g) :
    countEdges g = ((nodes g).map (predCount g)).foldr (· + ·) 0 := by
  have hperm : (edges g).Perm (edgesByCallee g) := by
    refine (List.perm_ext_iff_of_nodup hg.edges_nodup hg.edgesByCallee_nodup).2 fun e => ?_
    rw [hg.mem_edges, hg.mem_edgesByCallee]
  calc countEdges g = (edges g).length := (length_edges hg).symm
    _ = (edgesByCallee g).length := hperm.length_eq
    _ = _ := hg.length_edgesByCallee

end CallGraph

/-! ## The answers of a view -/

namespace View

open CallGraph (Lawful)

variable {v : View}

/-- Both ends of an edge are to be seen. -/
theorem mem_nodes_of_hasEdge (hg : Lawful v.graph) {a b : Node} (hab : CallGraph.hasEdge v a b) :
    a ∈ CallGraph.nodes v ∧ b ∈ CallGraph.nodes v := by
  rcases hasEdge_iff.1 hab with ⟨ha, hb, _⟩
  exact ⟨(mem_nodes hg).2 ha, (mem_nodes hg).2 hb⟩

/-- The callees of a node are those to which it has an edge. No node needs to be known
    to be seen, since an edge joins nodes to be seen. -/
theorem mem_succs_iff_hasEdge (hg : Lawful v.graph) {a b : Node} :
    b ∈ CallGraph.succs v a ↔ CallGraph.hasEdge v a b := by
  rw [(lawful hg).mem_succs]
  exact ⟨fun h => h.2, fun hab => ⟨(mem_nodes_of_hasEdge hg hab).2, hab⟩⟩

theorem mem_preds_iff_hasEdge (hg : Lawful v.graph) {a b : Node} :
    a ∈ CallGraph.preds v b ↔ CallGraph.hasEdge v a b := by
  rw [(lawful hg).preds_eq, List.mem_filter]
  exact ⟨fun h => h.2, fun hab => ⟨(mem_nodes_of_hasEdge hg hab).1, hab⟩⟩

theorem mem_edges_iff_hasEdge (hg : Lawful v.graph) {a b : Node} :
    (a, b) ∈ CallGraph.edges v ↔ CallGraph.hasEdge v a b := by
  rw [(lawful hg).mem_edges]
  refine ⟨fun h => h.2.2, fun hab => ?_⟩
  exact ⟨(mem_nodes_of_hasEdge hg hab).1, (mem_nodes_of_hasEdge hg hab).2, hab⟩

/-- The answers of a view fit together, whatever its filter keeps and hides and whatever
    edits led to the graph behind it.

    A view is lawful if its graph is, and all of this holds of lawful graphs. What is
    special to a view is only that its ends of edges have to be seen. -/
theorem queries_coherent (serial : Nat) (edits : List Graph.Edit) (filter : Filter) :
    let v : View := ⟨(Graph.fresh serial).afterAll edits, filter⟩
    -- The three ways to ask for an edge agree, and an edge joins nodes to be seen.
    (∀ src dst,
      (CallGraph.hasEdge v src dst ↔ dst ∈ CallGraph.succs v src) ∧
      (CallGraph.hasEdge v src dst ↔ src ∈ CallGraph.preds v dst) ∧
      (CallGraph.hasEdge v src dst → CallGraph.contains v src ∧ CallGraph.contains v dst)) ∧
    -- Sites and targets are two sides of one relation, inside sites and callees.
    (∀ src dst site,
      (site ∈ CallGraph.sitesBetween v src dst ↔ dst ∈ CallGraph.targets v src site) ∧
      (dst ∈ CallGraph.targets v src site → dst ∈ CallGraph.succs v src) ∧
      (site ∈ CallGraph.sitesBetween v src dst → site ∈ CallGraph.callSites v src)) ∧
    -- The nodes ascend, are counted, and are those that number, unit and context find.
    ((CallGraph.nodes v).Pairwise (fun a b => a.id < b.id) ∧ (CallGraph.nodes v).Nodup ∧
      CallGraph.nodeCount v = (CallGraph.nodes v).length ∧
      ∀ n, (n ∈ CallGraph.nodes v ↔ CallGraph.contains v n) ∧
        (CallGraph.contains v n ↔ CallGraph.node? v n.id = some n) ∧
        (CallGraph.contains v n ↔ CallGraph.lookup v n.unit n.context = some n)) ∧
    -- Every walk goes through one list, which has each edge once and in order, and both
    -- counts are its length.
    ∃ visited : List (Node × Node),
      (∀ {σ : Type} (f : σ → Node → Node → σ) (s : σ),
        CallGraph.visitEdges v (fun s a b => (f s a b, false)) s =
          (visited.foldl (fun s e => f s e.1 e.2) s, false)) ∧
      (∀ src dst, (src, dst) ∈ visited ↔ CallGraph.hasEdge v src dst) ∧
      visited.Nodup ∧ visited.Pairwise CallGraph.Precedes ∧
      CallGraph.countEdges v = visited.length ∧
      CallGraph.countEdges v =
        ((CallGraph.nodes v).map (CallGraph.predCount v)).foldr (· + ·) 0 := by
  intro v
  have hg : Lawful v.graph := ((Graph.wellFormed_fresh serial).afterAll edits).lawful
  have hv : Lawful v := lawful hg
  refine ⟨?_, ?_, ⟨hv.ascending, nodup_of_ascending hv.ascending, hv.nodeCount_eq, ?_⟩,
    CallGraph.edges v, CallGraph.visitEdges_of_unstopped, fun src dst => mem_edges_iff_hasEdge hg,
    hv.edges_nodup, hv.edges_ordered, (CallGraph.length_edges hv).symm, hv.countEdges_eq_predCount⟩
  · intro src dst
    refine ⟨(mem_succs_iff_hasEdge hg).symm, (mem_preds_iff_hasEdge hg).symm, fun hedge => ?_⟩
    rw [hv.contains_iff, hv.contains_iff]
    exact mem_nodes_of_hasEdge hg hedge
  · intro src dst site
    refine ⟨hv.mem_sitesBetween, fun hdst => ?_, fun hsite => ?_⟩
    · exact (mem_succs_iff_hasEdge hg).2 (hv.target_edge hdst).2.2
    · exact (hv.target_edge (hv.mem_sitesBetween.1 hsite)).1
  · intro n
    rw [hv.contains_iff, hv.node?_eq_some_iff, hv.lookup_eq_some_iff]
    simp only [and_true]

end View

end CallAtlas
