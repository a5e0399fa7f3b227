import CallAtlas.Proofs.Prune.Coherence
import CallAtlas.Proofs.Reach

/-!
# What Stays Reachable When Edges Are Hidden

A refined view keeps what the roots reach once some edges are hidden. It is found by two
searches. The first goes through the whole graph and hides nothing. The second goes through
a view that keeps what the first has found, and what it finds becomes what the view keeps.
So each of the two keep sets is in the way of a search: the first filters the second search,
and the second filters whatever is asked of the view from then on.

Neither is ever felt. A keep set that has the roots, and that no edge leaves which the overlay
spares, has every node to which spared edges lead from a root, so a search through it goes
where a search without it would go. The first keep set is such a set since it is closed under
all edges, the second since it is closed under the spared ones, and so is the set of all
numbers. With the last, a view is nothing but a graph without its hidden edges, and these can
as well be removed for good.

## Main definitions

* `Graph.cuts`: The removals of the hidden edges.
* `Graph.Spares`: An edge of the graph that the overlay does not hide.
* `Graph.Spread`: The numbers to which spared edges lead from the roots.
* `View.Closed`: No spared edge leaves what a view keeps.

## Theorems

* `View.Closed.leadsTo_iff`: Paths in a closed view are paths of spared edges.
* `View.Closed.mem_reachable_iff`: A search through a closed view finds what they lead to.
* `Graph.reachable_cut_iff`: So does a search through the graph without the hidden edges.
* `View.refined_keeps_reachable`: What a refined view keeps.
-/

namespace CallAtlas

/-- Graphs that agree have the same reachable nodes, since a search asks only for nodes
    and callees. -/
theorem CallGraph.Agree.reachable_eq {G H : Type} [CallGraph G] [CallGraph H] {g : G} {h : H}
    (hgh : Agree g h) (hg : Lawful g) (hh : Lawful h) (starts : List (Option Node)) :
    reachable g starts = reachable h starts := by
  refine IdSet.ext fun i => ?_
  rw [hg.mem_reachable, hh.mem_reachable]
  simp only [LeadsTo, hgh.succs, hgh.nodes]

namespace Graph

variable {g : Graph} {hidden : Overlay}

/-- The removals of the hidden edges between nodes of the graph. A hidden pair need not
    be an edge. -/
def cuts (g : Graph) (hidden : Overlay) : List Edit :=
  g.nodes.flatMap fun src => (g.nodes.filter fun dst => hidden.hides src.id dst.id).map
    fun dst => .removeEdge (some src) (some dst)

/-- The numbers of all nodes. -/
def everyone (g : Graph) : IdSet := IdSet.ofList (g.nodes.map fun n => n.id)

/-- An edge of the graph that the overlay does not hide. -/
def Spares (g : Graph) (hidden : Overlay) (a b : Node) : Prop :=
  g.hasEdge a b ∧ hidden.hides a.id b.id = false

/-- The numbers to which spared edges lead from the roots. -/
def Spread (g : Graph) (hidden : Overlay) (i : Int) : Prop :=
  ∃ n, n.id = i ∧ ∃ r, (CallGraph.fakeRoot g = some r ∨ CallGraph.fakeWorldClinit g = some r) ∧
    Relation.ReflTransGen (g.Spares hidden) r n

theorem WellFormed.mem_everyone (hg : WellFormed g) {n : Node} (hn : g.contains n) :
    n.id ∈ g.everyone :=
  IdSet.mem_ofList.2 (List.mem_map.2 ⟨n, hg.contains_iff_mem_nodes.1 hn, rfl⟩)

/-- A view of all nodes is made permanent by removing edges alone. -/
theorem WellFormed.mem_cuts (hg : WellFormed g) {e : Edit} :
    e ∈ g.cuts hidden ↔ Removes g g.everyone hidden e := by
  simp only [cuts, List.mem_flatMap, List.mem_map, List.mem_filter, ← hg.contains_iff_mem_nodes]
  constructor
  · rintro ⟨src, hsrc, dst, ⟨hdst, hhides⟩, rfl⟩
    exact .edge hsrc hdst hhides
  · intro he
    cases he with
    | edge hsrc hdst hhides => exact ⟨_, hsrc, _, ⟨hdst, hhides⟩, rfl⟩
    | node hn _ hdrop => exact absurd (hg.mem_everyone hn) hdrop

/-- The roots of a graph are nodes of it. -/
theorem Rooted.contains_root (hg : Rooted g) {r : Node}
    (hr : CallGraph.fakeRoot g = some r ∨ CallGraph.fakeWorldClinit g = some r) :
    g.contains r ∧ (r.id = rootId ∨ r.id = clinitId) := by
  rcases hr with hr | hr
  · have hroot : some r = some _ := hr.symm.trans hg.root
    rw [Option.some.inj hroot]
    exact ⟨contains_iff.2 hg.root, Or.inl rfl⟩
  · have hclinit : some r = some _ := hr.symm.trans hg.clinit
    rw [Option.some.inj hclinit]
    exact ⟨contains_iff.2 hg.clinit, Or.inr rfl⟩

theorem Rooted.spread_root (hg : Rooted g) : g.Spread hidden rootId :=
  ⟨_, rfl, _, Or.inl hg.root, .refl⟩

theorem Rooted.spread_clinit (hg : Rooted g) : g.Spread hidden clinitId :=
  ⟨_, rfl, _, Or.inr hg.clinit, .refl⟩

theorem Rooted.contains_of_spares (hg : Rooted g) {r n : Node}
    (hr : CallGraph.fakeRoot g = some r ∨ CallGraph.fakeWorldClinit g = some r)
    (h : Relation.ReflTransGen (g.Spares hidden) r n) : g.contains n := by
  cases h with
  | refl => exact (hg.contains_root hr).1
  | tail _ hedge => exact (hasEdge_iff.1 hedge.1).2.1

/-- A spared edge leads on. What leads to the number is a node of the graph, and there
    is one with this number. -/
theorem Spread.tail {a b : Node} (hg : Rooted g) (ha : g.Spread hidden a.id)
    (hab : g.Spares hidden a b) : g.Spread hidden b.id := by
  rcases ha with ⟨n, hid, r, hr, hpath⟩
  have hn : n = a :=
    eq_of_contains (hg.contains_of_spares hr hpath) (hasEdge_iff.1 hab.1).1 hid
  rw [hn] at hpath
  exact ⟨b, rfl, r, hr, hpath.tail hab⟩

/-- Callers from whom nothing is hidden make no difference. -/
theorem spares_trim : g.Spares hidden.trim = g.Spares hidden := by
  funext a b
  rw [Spares, Spares, hidden.hides_trim]

theorem spread_trim {i : Int} : g.Spread hidden.trim i ↔ g.Spread hidden i := by
  rw [Spread, Spread, spares_trim]

end Graph

namespace View

open CallGraph (Lawful LeadsTo reachable)

variable {v : View} {g : Graph} {hidden : Overlay}

/-! ## Searches through a closed view -/

/-- No spared edge leaves what a view keeps, and it keeps both roots. -/
structure Closed (v : View) : Prop where
  root : Graph.rootId ∈ v.filter.keep
  clinit : Graph.clinitId ∈ v.filter.keep
  spared : ∀ {a b}, v.graph.Spares v.filter.hidden a b → a.id ∈ v.filter.keep →
    b.id ∈ v.filter.keep

/-- A closed view has the roots of its graph. -/
theorem Closed.contains_root (hv : v.Closed) (hg : v.graph.Rooted) {r : Node}
    (hr : CallGraph.fakeRoot v.graph = some r ∨ CallGraph.fakeWorldClinit v.graph = some r) :
    v.contains r := by
  rcases hg.contains_root hr with ⟨hin, hid | hid⟩
  · exact contains_iff.2 ⟨hid ▸ hv.root, hin⟩
  · exact contains_iff.2 ⟨hid ▸ hv.clinit, hin⟩

/-- A closed view has the same roots as its graph. -/
theorem Closed.roots_eq (hv : v.Closed) (hg : v.graph.Rooted) :
    CallGraph.fakeRoot v = CallGraph.fakeRoot v.graph ∧
      CallGraph.fakeWorldClinit v = CallGraph.fakeWorldClinit v.graph := by
  have hkept : ∀ {o : Option Node}, (∀ r, o = some r → v.contains r) → o.filter v.contains = o := by
    intro o ho
    cases o with
    | none => rfl
    | some r => exact Option.filter_eq_some_iff.2 ⟨rfl, ho r rfl⟩
  exact ⟨hkept fun r hr => hv.contains_root hg (Or.inl hr),
    hkept fun r hr => hv.contains_root hg (Or.inr hr)⟩

/-- Paths in a closed view are paths of spared edges. An edge of the view is spared. For
    the converse each spared edge has to stay inside the view, and that is what being
    closed means. -/
theorem Closed.leadsTo_iff (hv : v.Closed) (hg : Lawful v.graph) {a n : Node}
    (ha : v.contains a) :
    LeadsTo v a n ↔ Relation.ReflTransGen (v.graph.Spares v.filter.hidden) a n := by
  constructor
  · intro hpath
    refine Relation.ReflTransGen.mono (fun b c hbc => ?_) _ _ hpath
    rcases hasEdge_iff.1 ((mem_succs_iff_hasEdge hg).1 hbc) with ⟨_, _, hshown, hedge⟩
    exact ⟨hedge, hshown⟩
  · intro hpath
    -- The view has every node on the way, one after the other.
    have hboth : LeadsTo v a n ∧ v.contains n := by
      induction hpath with
      | refl => exact ⟨.refl, ha⟩
      | @tail b c _ hbc ih =>
          have hc : v.contains c := contains_iff.2
            ⟨hv.spared hbc (contains_iff.1 ih.2).1, (Graph.hasEdge_iff.1 hbc.1).2.1⟩
          have hedge : v.hasEdge b c := hasEdge_iff.2 ⟨ih.2, hc, hbc.2, hbc.1⟩
          exact ⟨ih.1.tail ((mem_succs_iff_hasEdge hg).2 hedge), hc⟩
    exact hboth.1

/-- A search through a closed view finds what spared edges lead to. This does not
    mention what the view keeps, so all closed views with the same hidden edges find the
    same. -/
theorem Closed.mem_reachable_iff (hv : v.Closed) (hg : v.graph.WellFormed) {i : Int} :
    i ∈ reachable v [CallGraph.fakeRoot v, CallGraph.fakeWorldClinit v] ↔
      v.graph.Spread v.filter.hidden i := by
  have hlawful := hg.lawful
  rw [(lawful hlawful).mem_reachable, (hv.roots_eq hg.toRooted).1, (hv.roots_eq hg.toRooted).2]
  refine exists_congr fun n => and_congr_right fun _ => exists_congr fun r => ?_
  rw [List.mem_cons, List.mem_singleton, eq_comm, eq_comm (a := some r)]
  constructor
  · rintro ⟨hr, hin, hpath⟩
    exact ⟨hr, (hv.leadsTo_iff hlawful ((mem_nodes hlawful).1 hin)).1 hpath⟩
  · rintro ⟨hr, hpath⟩
    have hin := hv.contains_root hg.toRooted hr
    exact ⟨hr, (mem_nodes hlawful).2 hin, (hv.leadsTo_iff hlawful hin).2 hpath⟩

/-! ## Three closed views -/

/-- What all edges lead to is closed, whatever is hidden. The refined view is found by
    searching this view, which keeps too much but is closed already. -/
theorem closed_of_reachable (hg : g.WellFormed) (hidden : Overlay) :
    (View.of g (reachable g [CallGraph.fakeRoot g, CallGraph.fakeWorldClinit g])
      hidden).Closed := by
  have hlawful := hg.lawful
  -- The roots lead to themselves, by a path without calls.
  have hroot : ∀ {r}, CallGraph.fakeRoot g = some r ∨ CallGraph.fakeWorldClinit g = some r →
      r.id ∈ reachable g [CallGraph.fakeRoot g, CallGraph.fakeWorldClinit g] := by
    intro r hr
    refine hlawful.mem_reachable.2 ⟨r, rfl, r, ?_, ?_, .refl⟩
    · rw [List.mem_cons, List.mem_singleton]
      exact hr.imp Eq.symm Eq.symm
    · exact hlawful.contains_iff.1 (hg.contains_root hr).1
  refine ⟨hroot (Or.inl hg.root), hroot (Or.inr hg.clinit), fun {a b} hab ha => ?_⟩
  rcases hlawful.mem_reachable.1 ha with ⟨n, hid, r, hr, hin, hpath⟩
  have hedge : g.hasEdge a b := hab.1
  -- Numbers tell nodes apart, so the path leads to the caller itself.
  have hn : n = a := Graph.eq_of_contains
    (hlawful.contains_iff.2 (hlawful.mem_of_leadsTo hin hpath)) (Graph.hasEdge_iff.1 hedge).1 hid
  rw [hn] at hpath
  have hb : b ∈ CallGraph.succs g a :=
    hlawful.mem_succs.2 ⟨hlawful.contains_iff.1 (Graph.hasEdge_iff.1 hedge).2.1, hedge⟩
  exact hlawful.mem_reachable.2 ⟨b, rfl, r, hr, hin, hpath.tail hb⟩

theorem closed_of_everyone (hg : g.WellFormed) (hidden : Overlay) :
    (View.of g g.everyone hidden).Closed where
  root := hg.mem_everyone (hg.contains_root (Or.inl hg.root)).1
  clinit := hg.mem_everyone (hg.contains_root (Or.inr hg.clinit)).1
  spared hab _ := hg.mem_everyone (Graph.hasEdge_iff.1 hab.1).2.1

/-- A refined view keeps what spared edges lead to: this is how it was computed. -/
theorem mem_keep_refined (hg : g.WellFormed) {i : Int} :
    i ∈ (View.refined g hidden).filter.keep ↔ g.Spread hidden i :=
  ((closed_of_reachable hg hidden).mem_reachable_iff hg).trans Graph.spread_trim

/-- A refined view is closed, since a spared edge leads on. -/
theorem closed_refined (hg : g.WellFormed) : (View.refined g hidden).Closed where
  root := (mem_keep_refined hg).2 hg.spread_root
  clinit := (mem_keep_refined hg).2 hg.spread_clinit
  spared := by
    intro a b hab ha
    have hab' : g.Spares hidden a b := by
      rw [← Graph.spares_trim]
      exact hab
    exact (mem_keep_refined hg).2 (((mem_keep_refined hg).1 ha).tail hg.toRooted hab')

end View

/-- A search through the graph without its hidden edges finds what spared edges lead to.
    Removing the edges makes the view of all nodes permanent, and this view is closed. -/
theorem Graph.reachable_cut_iff {g : Graph} {hidden : Overlay} (hg : g.WellFormed)
    (hf : g.frozen = false) {es : List Edit} (hes : ∀ e, e ∈ es ↔ e ∈ g.cuts hidden) {i : Int} :
    i ∈ CallGraph.reachable (g.afterAll es)
        [CallGraph.fakeRoot (g.afterAll es), CallGraph.fakeWorldClinit (g.afterAll es)] ↔
      g.Spread hidden i := by
  have hclosed := View.closed_of_everyone hg hidden
  have hwf := hg.afterAll es
  have hagree : CallGraph.Agree (View.of g g.everyone hidden) (g.afterAll es) :=
    View.agree_of_pruned hg hwf (pruned_afterAll hg hf hclosed.root hclosed.clinit
      fun e => (hes e).trans hg.mem_cuts)
  rw [← hagree.fakeRoot, ← hagree.fakeWorldClinit,
    ← hagree.reachable_eq (View.lawful hg.lawful) hwf.lawful]
  exact (hclosed.mem_reachable_iff hg).trans spread_trim

namespace View

/-- A refined view keeps what can be reached once the hidden edges are removed, in
    whatever order. It has both roots, only hidden edges leave it, nothing in it is out
    of reach, and nothing happens to the graph.

    Both sides are what spared edges lead to from the roots: the view because it is
    closed, the cut graph because it agrees with the closed view of all nodes. -/
theorem refined_keeps_reachable {g : Graph} (hg : g.Obtainable) (hf : g.frozen = false)
    (hidden : Overlay) {es : List Graph.Edit} (hes : ∀ e, e ∈ es ↔ e ∈ g.cuts hidden) :
    let v := View.refined g hidden
    let cut := g.afterAll es
    v.filter.keep =
        CallGraph.reachable cut [CallGraph.fakeRoot cut, CallGraph.fakeWorldClinit cut] ∧
      (Graph.rootId ∈ v.filter.keep ∧ Graph.clinitId ∈ v.filter.keep) ∧
      (∀ a b, g.hasEdge a b → a.id ∈ v.filter.keep → b.id ∉ v.filter.keep →
        hidden.hides a.id b.id) ∧
      CallGraph.reachable v [CallGraph.fakeRoot v, CallGraph.fakeWorldClinit v] = v.filter.keep ∧
      v.graph = g := by
  intro v cut
  have hwf := hg.wellFormed
  have hclosed : v.Closed := closed_refined hwf
  refine ⟨?_, ⟨hclosed.root, hclosed.clinit⟩, ?_, ?_, rfl⟩
  · refine IdSet.ext fun i => ?_
    rw [mem_keep_refined hwf, Graph.reachable_cut_iff hwf hf hes]
  · -- An edge that leaves what is kept would have been followed, if it were not hidden.
    intro a b hedge ha hb
    by_contra hshown
    refine hb (hclosed.spared ?_ ha)
    change g.Spares hidden.trim a b
    rw [Graph.spares_trim]
    exact ⟨hedge, by simpa using hshown⟩
  · refine IdSet.ext fun i => ?_
    rw [hclosed.mem_reachable_iff hwf, mem_keep_refined hwf]
    exact Graph.spread_trim

/-- The fake root calls A; A calls B and C, B calls D, and C calls A. -/
def lanes : Graph :=
  let root := CallGraph.fakeRoot (Graph.fresh 0)
  let a := some (lettered 2 "A")
  let b := some (lettered 3 "B")
  let c := some (lettered 4 "C")
  let d := some (lettered 5 "D")
  let named (name : String) : Graph.Edit :=
    .findOrCreate (some (.named ⟨"", name, "()"⟩)) (some .everywhere)
  (Graph.fresh 0).afterAll
    [named "A", named "B", named "C", named "D", .addEdge root a,
      .addCall a ⟨0, ⟨"", "B", "()"⟩, .virtual⟩ b, .addEdge a c, .addEdge b d, .addEdge c a]

/-- The call from A to B is hidden, and so are pairs without an edge and of numbers without a
    node. The view keeps neither B nor D, which only B calls. -/
theorem refined_keeps_reachable_lanes :
    let hidden : Overlay :=
      ((Table.empty.insert 2 (IdSet.ofList [3, 9])).insert 4 (IdSet.ofList [5])).insert (-7)
        (IdSet.ofList [2])
    let v := View.refined lanes hidden
    let cut := lanes.afterAll (lanes.cuts hidden).reverse
    v.filter.keep = IdSet.ofList [0, 1, 2, 4] ∧
      v.filter.keep =
        CallGraph.reachable cut [CallGraph.fakeRoot cut, CallGraph.fakeWorldClinit cut] ∧
      CallGraph.reachable v [CallGraph.fakeRoot v, CallGraph.fakeWorldClinit v] =
        v.filter.keep := by
  intro hidden v cut
  have hg : lanes.Obtainable := ⟨0, _, rfl⟩
  have hall := refined_keeps_reachable hg (by decide +kernel) hidden
    (fun _ => List.mem_reverse)
  exact ⟨by decide +kernel, hall.1, hall.2.2.2.1⟩

end View

end CallAtlas
