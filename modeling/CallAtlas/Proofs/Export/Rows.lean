import CallAtlas.Export.Model
import CallAtlas.Proofs.Prune.Coherence
import CallAtlas.Report.Basic

/-!
# The Exported Rows Agree with the Report

The summary of an analysis counts what a view shows by going through the view. The rows of
the export are made from the graph behind it: there is one for every node and every edge,
and whether it is kept is asked of the view, element by element. Both count the same. The
view may be asked about numbers that its filter hides, and its filter may keep numbers that
the graph does not have, but on the nodes and edges of the graph asking and listing agree.

Everything else follows from the row of a node being found by its number and the row of an
edge by the numbers of its ends, since numbers tell the nodes of a lawful graph apart.

## Theorems

* `View.mem_nodes_iff_asked`, `View.mem_edges_iff_asked`: Asking a view about an element of
  its graph tells whether the view lists it.
* `Model.firstSite_le`: The first site has the lowest program counter.
* `Model.eq_funcRow_of_id`, `Model.eq_callRow_of_ends`: Rows are told apart by numbers.
* `Model.kept_of_kept_call`: The ends of a kept call are kept.
* `Model.countP_id_ends`: The ends of a call have one row each.
* `Model.kept_build`, `Model.countP_entrypoint`: The counts of the rows.
* `Model.rows_match_report`: The rows list the graph, and their counts are those of the
  summary.
-/

namespace CallAtlas

open CallGraph (Lawful)

namespace View

variable {v : View}

theorem hasEdge_graph {a b : Node} (h : CallGraph.hasEdge v a b) :
    CallGraph.hasEdge v.graph a b := (hasEdge_iff.1 h).2.2.2

/-- Asking a view about a node of its graph tells whether the view lists it. -/
theorem mem_nodes_iff_asked (hg : Lawful v.graph) {n : Node} :
    n ∈ CallGraph.nodes v ↔ n ∈ CallGraph.nodes v.graph ∧ CallGraph.contains v n := by
  rw [(lawful hg).contains_iff]
  exact ⟨fun hn => ⟨(List.mem_filter.1 hn).1, hn⟩, fun h => h.2⟩

/-- Asking a view about an edge of its graph tells whether the view lists it. -/
theorem mem_edges_iff_asked (hg : Lawful v.graph) {e : Node × Node} :
    e ∈ CallGraph.edges v ↔
      e ∈ CallGraph.edges v.graph ∧ CallGraph.hasEdge v e.1 e.2 := by
  rw [hg.mem_edges, mem_edges_iff_hasEdge hg]
  refine ⟨fun hab => ⟨?_, hab⟩, fun h => h.2⟩
  rcases mem_nodes_of_hasEdge hg hab with ⟨ha, hb⟩
  exact ⟨(List.mem_filter.1 ha).1, (List.mem_filter.1 hb).1, hasEdge_graph hab⟩

end View

namespace Model

variable {G V : Type} [CallGraph G] [CallGraph V] {full : G} {view : V} {d : Describer}

/-! ## The first site -/

/-- There is a first site unless there is no site. -/
theorem firstSite_eq_none_iff {l : List CallSite} : firstSite l = none ↔ l = [] := by
  cases l with
  | nil => simp [firstSite]
  | cons s rest =>
      rw [firstSite]
      cases firstSite rest with
      | none => simp
      | some t => by_cases h : t.pc < s.pc <;> simp [h]

/-- The first site is one of the sites and has the lowest program counter. -/
theorem firstSite_le {l : List CallSite} {s : CallSite} (h : firstSite l = some s) :
    s ∈ l ∧ ∀ t ∈ l, s.pc ≤ t.pc := by
  induction l generalizing s with
  | nil => simp [firstSite] at h
  | cons first rest ih =>
      rw [firstSite] at h
      cases hrest : firstSite rest with
      | none =>
          rw [hrest] at h
          obtain rfl : first = s := Option.some.inj h
          obtain rfl : rest = [] := firstSite_eq_none_iff.1 hrest
          simp
      | some u =>
          rw [hrest] at h
          rcases ih hrest with ⟨hu, hle⟩
          -- A site of the rest has to be strictly lower to come before the head.
          by_cases hlt : u.pc < first.pc
          · obtain rfl : u = s := by simpa [hlt] using h
            refine ⟨List.mem_cons_of_mem _ hu, fun t ht => ?_⟩
            rcases List.mem_cons.1 ht with rfl | ht
            · omega
            · exact hle t ht
          · obtain rfl : first = s := by simpa [hlt] using h
            refine ⟨List.mem_cons_self, fun t ht => ?_⟩
            rcases List.mem_cons.1 ht with rfl | ht
            · omega
            · have := hle t ht
              omega

/-- The label of a row is that of a site with the lowest program counter, if there is a
    site. -/
theorem site_callRow (e : Node × Node) :
    let sites := CallGraph.sitesBetween full e.1 e.2
    (sites = [] → (callRow full view d e).site = "") ∧
      (sites ≠ [] → ∃ s ∈ sites, (∀ t ∈ sites, s.pc ≤ t.pc) ∧
        (callRow full view d e).site = d.siteLabel e.1 s) := by
  intro sites
  have hsite : (callRow full view d e).site = (firstSite sites).elim "" (d.siteLabel e.1) := rfl
  rw [hsite]
  cases hfirst : firstSite sites with
  | none =>
      have hnil := firstSite_eq_none_iff.1 hfirst
      exact ⟨fun _ => rfl, fun h => absurd hnil h⟩
  | some s =>
      rcases firstSite_le hfirst with ⟨hs, hle⟩
      exact ⟨fun h => absurd (h ▸ hs) (by simp), fun _ => ⟨s, hs, hle, rfl⟩⟩

theorem isDynamic_callRow_iff (e : Node × Node) :
    (callRow full view d e).isDynamic ↔ ∃ s ∈ CallGraph.sitesBetween full e.1 e.2,
      s.kind = .virtual ∨ s.kind = .interface := by
  rw [callRow, List.any_eq_true]
  simp only [Dispatch.isOverriding_iff]

/-! ## Rows and numbers -/

theorem ids_build :
    (build full view d).funcs.map (·.id) = (CallGraph.nodes full).map (·.id) := by
  rw [build, List.map_map]
  rfl

theorem ends_build :
    (build full view d).calls.map (fun c => (c.caller, c.callee)) =
      (CallGraph.edges full).map fun e => (e.1.id, e.2.id) := by
  rw [build, List.map_map]
  rfl

/-- The row with the number of a node is the row of that node. Rows are found by number,
    as the database finds them. -/
theorem eq_funcRow_of_id (hg : Lawful full) {r : FuncRow} (hr : r ∈ (build full view d).funcs)
    {n : Node} (hn : n ∈ CallGraph.nodes full) (h : r.id = n.id) : r = funcRow full view d n := by
  rcases List.mem_map.1 hr with ⟨m, hm, rfl⟩
  rw [hg.eq_of_id hm hn h]

/-- The row with the numbers of two nodes is the row of the edge between them. -/
theorem eq_callRow_of_ends (hg : Lawful full) {c : CallRow} (hc : c ∈ (build full view d).calls)
    {a b : Node} (ha : a ∈ CallGraph.nodes full) (hb : b ∈ CallGraph.nodes full)
    (hcaller : c.caller = a.id) (hcallee : c.callee = b.id) : c = callRow full view d (a, b) := by
  rcases List.mem_map.1 hc with ⟨⟨a', b'⟩, he, rfl⟩
  rcases hg.mem_edges.1 he with ⟨ha', hb', _⟩
  obtain rfl : a' = a := hg.eq_of_id ha' ha hcaller
  obtain rfl : b' = b := hg.eq_of_id hb' hb hcallee
  rfl

/-- The mark for entrypoints compares numbers, which in a lawful graph is comparing nodes. -/
theorem entrypoint_funcRow_iff (hg : Lawful full) {n : Node} (hn : n ∈ CallGraph.nodes full) :
    (funcRow full view d n).entrypoint ↔ n ∈ CallGraph.entrypoints full := by
  rw [funcRow, List.any_eq_true]
  simp only [decide_eq_true_iff]
  constructor
  · rintro ⟨m, hm, hid⟩
    rw [← hg.eq_of_id (hg.mem_of_mem_entrypoints hm) hn hid]
    exact hm
  · exact fun h => ⟨n, h, rfl⟩

/-- The ends of a kept call are kept. -/
theorem kept_of_kept_call {v : View} (hg : Lawful v.graph) {c : CallRow}
    (hc : c ∈ (build v.graph v d).calls) (hkept : c.kept) {r : FuncRow}
    (hr : r ∈ (build v.graph v d).funcs) (hid : r.id = c.caller ∨ r.id = c.callee) : r.kept := by
  rcases List.mem_map.1 hc with ⟨⟨a, b⟩, he, rfl⟩
  rcases hg.mem_edges.1 he with ⟨ha, hb, _⟩
  rcases View.hasEdge_iff.1 hkept with ⟨hka, hkb, _⟩
  rcases hid with hid | hid
  · rw [eq_funcRow_of_id hg hr ha hid]
    exact hka
  · rw [eq_funcRow_of_id hg hr hb hid]
    exact hkb

/-! ## Counts -/

/-- The marked rows of some elements are as many as the elements that the mark picks
    out. Both lists have no repetitions, so it is enough that they have the same
    members. All counts of rows below are cases of this. -/
theorem countP_map_eq_length {α β : Type} {row : α → β} {mark : β → Bool} {all picked : List α}
    (hall : all.Nodup) (hpicked : picked.Nodup)
    (h : ∀ a, a ∈ picked ↔ a ∈ all ∧ mark (row a)) :
    (all.map row).countP mark = picked.length := by
  rw [List.countP_map, List.countP_eq_length_filter]
  refine ((List.perm_ext_iff_of_nodup (hall.filter _) hpicked).2 fun a => ?_).length_eq
  rw [List.mem_filter, h]
  rfl

theorem length_funcs_build :
    (build full view d).funcs.length = (CallGraph.nodes full).length := List.length_map _

theorem length_calls_build :
    (build full view d).calls.length = (CallGraph.edges full).length := List.length_map _

/-- A node has one row. -/
theorem countP_id_eq_one (hg : Lawful full) {n : Node} (hn : n ∈ CallGraph.nodes full) :
    (build full view d).funcs.countP (·.id = n.id) = 1 := by
  have hcount : (build full view d).funcs.countP (·.id = n.id) = [n].length := by
    refine countP_map_eq_length (nodup_of_ascending hg.ascending) (List.nodup_singleton n)
      fun m => ?_
    rw [List.mem_singleton, decide_eq_true_iff]
    constructor
    · rintro rfl
      exact ⟨hn, rfl⟩
    · rintro ⟨hm, hid⟩
      exact hg.eq_of_id hm hn hid
  exact hcount

/-- The ends of a call have one row each. -/
theorem countP_id_ends (hg : Lawful full) {c : CallRow} (hc : c ∈ (build full view d).calls) :
    (build full view d).funcs.countP (·.id = c.caller) = 1 ∧
      (build full view d).funcs.countP (·.id = c.callee) = 1 := by
  rcases List.mem_map.1 hc with ⟨e, he, rfl⟩
  rcases hg.mem_edges.1 he with ⟨hcaller, hcallee, _⟩
  exact ⟨countP_id_eq_one hg hcaller, countP_id_eq_one hg hcallee⟩

/-- As many rows are marked as entrypoints as there are entrypoints. -/
theorem countP_entrypoint (hg : Lawful full) :
    (build full view d).funcs.countP (·.entrypoint) = (CallGraph.entrypoints full).length := by
  refine countP_map_eq_length (nodup_of_ascending hg.ascending) hg.entrypoints_nodup fun n => ?_
  constructor
  · intro hn
    have hmem := hg.mem_of_mem_entrypoints hn
    exact ⟨hmem, (entrypoint_funcRow_iff hg hmem).2 hn⟩
  · rintro ⟨hmem, hmark⟩
    exact (entrypoint_funcRow_iff hg hmem).1 hmark

/-- The kept rows are as many as the view has nodes and edges. The rows are made from
    the graph and the view is asked about each, so this compares being asked with
    listing. -/
theorem kept_build {v : View} (hg : Lawful v.graph) :
    ((build v.graph v d).kept.1 : Int) = CallGraph.nodeCount v ∧
      (build v.graph v d).kept.2 = CallGraph.countEdges v := by
  have hv := View.lawful hg
  have hfuncs : (build v.graph v d).funcs.countP (·.kept) = (CallGraph.nodes v).length :=
    countP_map_eq_length (nodup_of_ascending hg.ascending) (nodup_of_ascending hv.ascending)
      fun _ => View.mem_nodes_iff_asked hg
  have hcalls : (build v.graph v d).calls.countP (·.kept) = (CallGraph.edges v).length :=
    countP_map_eq_length hg.edges_nodup hv.edges_nodup fun _ => View.mem_edges_iff_asked hg
  rw [kept, hfuncs, hcalls, hv.nodeCount_eq, CallGraph.length_edges hv]
  exact ⟨rfl, rfl⟩

/-- The rows of a graph list its nodes and its edges, each once and in order, and their
    counts are those that the summary prints, whatever the filter of the view keeps and
    hides and whatever edits led to the graph behind it.

    Rows and summary are computed apart: the rows by going over the lists of the graph,
    the summary by asking graph and view for their own counts. They agree because graph
    and view are lawful. -/
theorem rows_match_report (serial : Nat) (edits : List Graph.Edit) (filter : Filter)
    (d : Describer) :
    let g := (Graph.fresh serial).afterAll edits
    let v : View := ⟨g, filter⟩
    let m := build g v d
    -- The rows of nodes are those of the live numbers, in order.
    ((m.funcs.map (·.id)).Pairwise (· < ·) ∧ (∀ i, i ∈ m.funcs.map (·.id) ↔ g.Live i) ∧
      (m.funcs.length : Int) = CallGraph.nodeCount g) ∧
    -- The rows of edges are those of the calls, in order of the caller and then the callee.
    ((m.calls.map fun c => (c.caller, c.callee)).Pairwise
        (fun e e' => e.1 < e'.1 ∨ (e.1 = e'.1 ∧ e.2 < e'.2)) ∧
      (∀ i j, (i, j) ∈ m.calls.map (fun c => (c.caller, c.callee)) ↔
        ∃ a b, a.id = i ∧ b.id = j ∧ CallGraph.hasEdge g a b) ∧
      (m.calls.length : Int) = g.edges) ∧
    -- What is kept is counted as the view counts itself, and a kept call has kept ends.
    ((m.kept.1 : Int) = CallGraph.nodeCount v ∧ m.kept.2 = CallGraph.countEdges v ∧
      ∀ c ∈ m.calls, c.kept → ∀ r ∈ m.funcs, r.id = c.caller ∨ r.id = c.callee → r.kept) ∧
    -- What the row of a node is marked with.
    (∀ n, CallGraph.contains g n → ∀ r ∈ m.funcs, r.id = n.id →
      (r.entrypoint ↔ n ∈ CallGraph.entrypoints g) ∧ (r.kept ↔ CallGraph.contains v n)) ∧
    -- What the row of an edge says about its sites.
    (∀ a b, CallGraph.hasEdge g a b → ∀ c ∈ m.calls, c.caller = a.id → c.callee = b.id →
      let sites := CallGraph.sitesBetween g a b
      (c.kept ↔ CallGraph.hasEdge v a b) ∧ c.sites = sites.length ∧
      (c.isDynamic ↔ ∃ s ∈ sites, s.kind = .virtual ∨ s.kind = .interface) ∧
      (sites = [] → c.site = "") ∧
      (sites ≠ [] → ∃ s ∈ sites, (∀ t ∈ sites, s.pc ≤ t.pc) ∧ c.site = d.siteLabel a s)) ∧
    -- The summary could be printed from the rows.
    ∀ r : Report, r.graph = g → r.view = v →
      r.text = Columns.layout (
        "module\t" ++ r.module ++ "\n" ++
        ("entrypoints\t" ++ toString (m.funcs.countP (·.entrypoint)) ++ "\n") ++
        ("nodes\t" ++ toString m.funcs.length ++ "\n") ++
        ("edges\t" ++ toString m.calls.length ++ "\n") ++
        ("refinement\t" ++ r.outcome.result.text ++ " after " ++ toString r.outcome.passes ++
          " passes (" ++ toString r.narrowed ++ " sites narrowed)\n") ++
        ("kept nodes\t" ++ toString m.kept.1 ++ "\n") ++
        ("kept edges\t" ++ toString m.kept.2 ++ "\n") ++
        ("elapsed\t" ++ Duration.text (Duration.roundToMilli r.elapsed) ++ "\n")) := by
  intro g v m
  have hwf : g.WellFormed := (Graph.wellFormed_fresh serial).afterAll edits
  have hg : Lawful g := hwf.lawful
  have hnodes : (m.funcs.length : Int) = CallGraph.nodeCount g := by
    rw [length_funcs_build, hg.nodeCount_eq]
  have hedges : (m.calls.length : Int) = g.edges := by
    rw [length_calls_build, CallGraph.length_edges hg]
    exact hwf.countEdges_eq
  have hkept := kept_build (v := v) (d := d) hg
  -- An edge joins nodes of the graph, so it is among the listed ones.
  have hends : ∀ {a b}, CallGraph.hasEdge g a b →
      a ∈ CallGraph.nodes g ∧ b ∈ CallGraph.nodes g := by
    intro a b hab
    rw [← hg.contains_iff, ← hg.contains_iff]
    exact ⟨(Graph.hasEdge_iff.1 hab).1, (Graph.hasEdge_iff.1 hab).2.1⟩
  refine ⟨⟨?_, ?_, hnodes⟩, ⟨?_, ?_, hedges⟩, ⟨hkept.1, hkept.2, ?_⟩, ?_, ?_, ?_⟩
  · rw [ids_build, List.pairwise_map]
    exact hg.ascending
  · intro i
    rw [ids_build, List.mem_map]
    constructor
    · rintro ⟨n, hn, rfl⟩
      exact Graph.live_of_contains (hg.contains_iff.2 hn)
    · intro hi
      rcases hwf.exists_contains hi with ⟨n, hn, hid⟩
      exact ⟨n, hg.contains_iff.1 hn, hid⟩
  · rw [ends_build, List.pairwise_map]
    exact hg.edges_ordered
  · intro i j
    rw [ends_build, List.mem_map]
    constructor
    · rintro ⟨⟨a, b⟩, he, hij⟩
      exact ⟨a, b, (Prod.mk.inj hij).1, (Prod.mk.inj hij).2, (hg.mem_edges.1 he).2.2⟩
    · rintro ⟨a, b, rfl, rfl, hab⟩
      exact ⟨(a, b), hg.mem_edges.2 ⟨(hends hab).1, (hends hab).2, hab⟩, rfl⟩
  · exact fun c hc hkept r hr hid => kept_of_kept_call (v := v) hg hc hkept hr hid
  · intro n hn r hr hid
    have hmem := hg.contains_iff.1 hn
    rw [eq_funcRow_of_id hg hr hmem hid]
    exact ⟨entrypoint_funcRow_iff hg hmem, Iff.rfl⟩
  · intro a b hab c hc hcaller hcallee sites
    rw [eq_callRow_of_ends hg hc (hends hab).1 (hends hab).2 hcaller hcallee]
    exact ⟨Iff.rfl, rfl, isDynamic_callRow_iff (a, b), site_callRow (a, b)⟩
  · intro r hgraph hview
    have hentry : m.funcs.countP (·.entrypoint) = (CallGraph.entrypoints g).length :=
      countP_entrypoint hg
    have hrefinement : ∀ passes : Int, ∀ narrowed : Nat,
        Report.line "refinement" (r.outcome.result.text ++ " after " ++ toString passes ++
          " passes (" ++ toString narrowed ++ " sites narrowed)") =
        "refinement\t" ++ r.outcome.result.text ++ " after " ++ toString passes ++
          " passes (" ++ toString narrowed ++ " sites narrowed)\n" := by
      intro passes narrowed
      have htab : "refinement" ++ "\t" = "refinement\t" := rfl
      have hend : " sites narrowed)" ++ "\n" = " sites narrowed)\n" := rfl
      rw [Report.line, htab, ← hend]
      simp only [String.append_assoc]
    -- The report counts in integers, and natural numbers print alike.
    rw [Report.text, hgraph, hview, ← hnodes, ← hedges, ← hkept.1, ← hkept.2, hentry, hrefinement]
    rfl

/-- The two sites of one edge share a row, and edges without a site have no label. -/
example :
    let hidden : Overlay := Table.empty.insert 2 (.ofList [3])
    let v := View.of View.letters (.ofList [0, 1, 2, 3, 9]) hidden
    let m := build View.letters v ⟨fun _ => default, fun _ s => s.kind.text⟩
    m.kept = (4, 2) ∧ m.calls =
      [⟨2, 2, 1, false, "static", true⟩, ⟨2, 3, 2, true, "virtual", false⟩,
        ⟨3, 2, 0, false, "", true⟩, ⟨3, 4, 0, false, "", false⟩] := by
  decide

end Model

end CallAtlas
