import CallAtlas.Proofs.Numbers
import CallAtlas.Proofs.Prune.Coherence

/-!
# Views of a Graph That Others Edit

Several views may stand before one graph, and the graph may also be edited directly. A view
is told of the edits that are made through it and of no others. It holds numbers, and what
it shows is whatever has these numbers when it is asked. So nothing in the view itself keeps
a node made by somebody else from turning up in it under a number that the view happens to
keep. What keeps it out is how the graph hands out its numbers: a view that kept numbers of
its own time only will never meet a later node under one of them.

Every edit through a view changes the graph by an edit that could have been made directly, or
not at all. A run in which everybody edits is therefore a run of edits of the graph, and what
is known of these carries over. On the side of the filter it is enough that no edit adds a
number to what a view keeps.

A hidden pair is a different matter, since a view may show it again. The pair is known to
the overlay by its numbers alone, and an edit through the view may name other nodes with
these numbers, such as nodes of another graph. Such an edit is refused, because of two nodes
with one number a graph has at most one; hence a pair of nodes in the view stays hidden until
an edit names these very nodes.

## Main definitions

* `View.Edit`, `View.after`: An edit through a view, and the view after it.
* `Shared`: A graph with the filters of all its views.
* `Shared.Act`, `Shared.afterAll`: What anybody may do, and the state after a run.
* `Shared.naming`: The edits through a view that may show a hidden pair again.
* `View.Narrowed`: What a view may become.
* `View.Concealed`: A pair is hidden as long as the view has both ends.
* `View.Unseen`: No answer of a view betrays an edge.

## Theorems

* `View.after_cases`: What an edit through a view can do.
* `Shared.narrowed_afterAll`: What a run can make of a view.
* `View.Narrowed.contains`: A view of numbers of its own time discovers no nodes.
* `Shared.concealed_afterAll`: A hidden pair stays hidden until it is named.
* `Shared.views_discover_nothing`: Both for every run of edits by everybody.
-/

namespace CallAtlas

namespace View

/-! ## An edit through a view -/

/-- An edit through a view with its arguments, which need not be nodes of the graph. -/
inductive Edit where
  | addEdge (src dst : Option Node)
  | removeEdge (src dst : Option Node)
  | removeNode (n : Option Node)
  | hide (src dst : Node)
deriving DecidableEq

/-- Makes an edit through a view, or refuses it. -/
def attempt (v : View) : Edit → Except GraphError View
  | .addEdge src dst => v.addEdge src dst
  | .removeEdge src dst => v.removeEdge src dst
  | .removeNode n => v.removeNode n
  | .hide src dst => .ok (v.hide src dst)

/-- The view after an edit. A refused edit leaves it as it was. -/
def after (v : View) (e : Edit) : View :=
  match v.attempt e with
  | .ok v' => v'
  | .error _ => v

variable {v v' : View} {src dst : Option Node}

theorem after_of_attempt {e : Edit} (h : v.attempt e = .ok v') : v.after e = v' := by
  rw [after, h]

/-- An edge is added if both ends are to be seen, and then it is shown. Otherwise
    nothing happens and nothing is refused. -/
theorem addEdge_eq_ok_iff :
    v.addEdge src dst = .ok v' ↔
      (v.sees src ∧ v.sees dst ∧ ∃ g, v.graph.addEdge src dst = .ok g ∧
        { v with graph := g }.unhide src dst = v') ∨ (¬ (v.sees src ∧ v.sees dst) ∧ v = v') := by
  unfold addEdge
  by_cases hsees : v.sees src ∧ v.sees dst
  · simp only [hsees, Bool.and_self, if_true, except_bind_eq_ok_iff, pure, Except.pure,
      Except.ok.injEq, true_and, not_true_eq_false, false_and, or_false, and_self]
  · rw [if_neg (by rw [Bool.and_eq_true]; exact hsees)]
    constructor
    · intro h
      exact Or.inr ⟨hsees, Except.ok.inj h⟩
    · rintro (⟨hs, hd, _⟩ | ⟨_, rfl⟩)
      · exact absurd ⟨hs, hd⟩ hsees
      · rfl

/-- An edge is removed from the graph whether the view shows it or not. -/
theorem removeEdge_eq_ok_iff :
    v.removeEdge src dst = .ok v' ↔ ∃ g, v.graph.removeEdge src dst = .ok g ∧
      { v with graph := g }.unhide src dst = v' := by
  simp only [removeEdge, except_bind_eq_ok_iff, pure, Except.pure, Except.ok.injEq]

/-- What an edit through a view can do. It is refused or has no effect, it hides an
    edge, or it is an edit of the graph at nodes of the graph, after which the filter is
    tidied. Everything below is derived from these five cases. -/
theorem after_cases (v : View) (e : Edit) :
    v.after e = v ∨
    (∃ s d, e = .hide s d ∧ v.after e = v.hide s d) ∨
    (∃ s d, e = .addEdge (some s) (some d) ∧ v.contains s ∧ v.contains d ∧
      v.after e = ⟨v.graph.after (.addEdge (some s) (some d)),
        { v.filter with hidden := v.filter.hidden.unhide s.id d.id }⟩) ∨
    (∃ s d, e = .removeEdge (some s) (some d) ∧ v.graph.contains s ∧ v.graph.contains d ∧
      v.after e = ⟨v.graph.after (.removeEdge (some s) (some d)),
        { v.filter with hidden := v.filter.hidden.unhide s.id d.id }⟩) ∨
    ∃ n, e = .removeNode (some n) ∧ v.graph.contains n ∧
      v.after e = ⟨v.graph.after (.removeNode (some n)),
        ⟨v.filter.keep.erase n.id, v.filter.hidden.forget n.id⟩⟩ := by
  cases he : v.attempt e with
  | error err =>
      rw [after, he]
      exact Or.inl rfl
  | ok v' =>
      rw [after_of_attempt he]
      cases e with
      | hide s d => exact Or.inr (Or.inl ⟨s, d, rfl, (Except.ok.inj he).symm⟩)
      | addEdge src dst =>
          rcases addEdge_eq_ok_iff.1 he with ⟨hs, hd, g, hg, rfl⟩ | ⟨_, rfl⟩
          · -- An edge is added only between nodes of the graph, and these are the arguments.
            rcases Graph.addEdge_eq_ok_iff.1 hg with ⟨_, s, hrs, d, hrd, _⟩
            rcases Graph.node_of_require hrs with ⟨rfl, _⟩
            rcases Graph.node_of_require hrd with ⟨rfl, _⟩
            have hafter := Graph.after_of_attempt (e := .addEdge (some s.node) (some d.node)) hg
            refine Or.inr (Or.inr (Or.inl ⟨s.node, d.node, rfl, hs, hd, ?_⟩))
            rw [hafter]
            rfl
          · -- An edge to or from a node that is not to be seen is left alone.
            exact Or.inl rfl
      | removeEdge src dst =>
          rcases removeEdge_eq_ok_iff.1 he with ⟨g, hg, rfl⟩
          rcases Graph.removeEdge_eq_ok_iff.1 hg with ⟨_, s, hrs, d, hrd, _⟩
          rcases Graph.node_of_require hrs with ⟨rfl, hs⟩
          rcases Graph.node_of_require hrd with ⟨rfl, hd⟩
          have hafter := Graph.after_of_attempt (e := .removeEdge (some s.node) (some d.node)) hg
          refine Or.inr (Or.inr (Or.inr (Or.inl ⟨s.node, d.node, rfl, hs, hd, ?_⟩)))
          rw [hafter]
          rfl
      | removeNode n =>
          rcases except_bind_eq_ok_iff.1 he with ⟨g, hg, hv'⟩
          rcases Graph.removeNode_eq_ok_iff.1 hg with ⟨_, s, hrs, _⟩
          rcases Graph.node_of_require hrs with ⟨rfl, hs⟩
          have hafter := Graph.after_of_attempt (e := .removeNode (some s.node)) hg
          refine Or.inr (Or.inr (Or.inr (Or.inr ⟨s.node, rfl, hs, ?_⟩)))
          rw [hafter]
          exact (Except.ok.inj hv').symm

/-- What a view may become: its graph is edited, and it keeps no further numbers. -/
structure Narrowed (v v' : View) : Prop where
  edited : ∃ es, v'.graph = v.graph.afterAll es
  keep : ∀ i ∈ v'.filter.keep, i ∈ v.filter.keep

theorem Narrowed.refl (v : View) : Narrowed v v := ⟨⟨[], rfl⟩, fun _ hi => hi⟩

/-- A view may become in several steps what it may become in one. -/
theorem Narrowed.trans {v₁ v₂ v₃ : View} (h₁ : Narrowed v₁ v₂) (h₂ : Narrowed v₂ v₃) :
    Narrowed v₁ v₃ := by
  rcases h₁.edited with ⟨es, hes⟩
  rcases h₂.edited with ⟨es', hes'⟩
  refine ⟨⟨es ++ es', ?_⟩, fun i hi => h₁.keep i (h₂.keep i hi)⟩
  rw [hes', hes, Graph.afterAll_append]

/-- An edit through a view makes of it what a view may become. -/
theorem narrowed_after (v : View) (e : Edit) : Narrowed v (v.after e) := by
  rcases v.after_cases e with h | ⟨s, d, _, h⟩ | ⟨s, d, _, _, _, h⟩ | ⟨s, d, _, _, _, h⟩ |
    ⟨n, _, _, h⟩
  · rw [h]
    exact Narrowed.refl v
  · -- Hiding an edge is no edit of the graph.
    rw [h]
    exact ⟨⟨[], rfl⟩, fun _ hi => hi⟩
  · rw [h]
    exact ⟨⟨[_], rfl⟩, fun _ hi => hi⟩
  · rw [h]
    exact ⟨⟨[_], rfl⟩, fun _ hi => hi⟩
  · rw [h]
    exact ⟨⟨[_], rfl⟩, fun i hi => (IdSet.mem_erase.1 hi).1⟩

/-! ## Numbers of one time -/

/-- A view keeps only numbers that its graph has handed out. -/
def Timely (v : View) : Prop := ∀ i ∈ v.filter.keep, i < v.graph.slots.size

theorem Narrowed.wellFormed (h : Narrowed v v') (hg : v.graph.WellFormed) : v'.graph.WellFormed := by
  rcases h.edited with ⟨es, hes⟩
  rw [hes]
  exact hg.afterAll es

/-- Numbers that were handed out remain so. -/
theorem Narrowed.timely (h : Narrowed v v') (hg : v.graph.WellFormed) (ht : v.Timely) :
    v'.Timely := by
  intro i hi
  rcases h.edited with ⟨es, hes⟩
  have hlt := ht i (h.keep i hi)
  have hsize := (Graph.arrivals_id hg es).2
  rw [hes, hsize]
  omega

/-- A view of numbers of its own time discovers no nodes. A graph never hands out a
    number twice, so a node that came later does not have one of the numbers that are
    kept. -/
theorem Narrowed.contains (h : Narrowed v v') (hg : v.graph.WellFormed) (ht : v.Timely) {n : Node}
    (hn : v'.contains n) : v.contains n := by
  rcases contains_iff.1 hn with ⟨hkeep, hin⟩
  rcases h.edited with ⟨es, hes⟩
  rw [hes] at hin
  have hkept := h.keep n.id hkeep
  refine contains_iff.2 ⟨hkept, ?_⟩
  -- A node that came later has a number that was not handed out before.
  by_contra hnew
  have hle := Graph.le_id_of_arrived hg hin hnew
  have hlt := ht n.id hkept
  omega

/-! ## Hidden pairs -/

/-- A pair is hidden as long as the view has both of its ends. -/
def Concealed (v : View) (a b : Node) : Prop :=
  v.contains a → v.contains b → v.filter.hidden.hides a.id b.id

/-- The edits through a view that may show a pair again. -/
def naming (a b : Node) : List Edit :=
  [.addEdge (some a) (some b), .removeEdge (some a) (some b), .removeNode (some a),
    .removeNode (some b)]

/-- An edit through the view that does not name the pair leaves it hidden. Only three
    edits take a pair out of the filter, and they do so by number. A number stands for one
    node, so the edit would have to name the nodes of the pair. -/
theorem Concealed.after {a b : Node} (hg : v.graph.WellFormed) (ht : v.Timely)
    (hc : v.Concealed a b) {e : Edit} (he : e ∉ naming a b) : (v.after e).Concealed a b := by
  intro ha' hb'
  -- The view had both ends before, so that nodes with their numbers are these very nodes.
  have ha := (narrowed_after v e).contains hg ht ha'
  have hb := (narrowed_after v e).contains hg ht hb'
  have hhides := hc ha hb
  have hsame : ∀ {m k : Node}, v.graph.contains m → v.contains k → k.id = m.id → k = m :=
    fun hm hk hid => Graph.eq_of_contains (contains_iff.1 hk).2 hm hid
  rcases v.after_cases e with h | ⟨s, d, _, h⟩ | ⟨s, d, rfl, hs, hd, h⟩ | ⟨s, d, rfl, hs, hd, h⟩ |
    ⟨n, rfl, hn, h⟩
  · rw [h]
    exact hhides
  · rw [h]
    exact Overlay.hides_hide.2 (Or.inl hhides)
  · rw [h]
    refine Overlay.hides_unhide.2 ⟨hhides, ?_⟩
    rintro ⟨hsid, hdid⟩
    rw [hsame (contains_iff.1 hs).2 ha hsid, hsame (contains_iff.1 hd).2 hb hdid] at he
    exact he (by simp [naming])
  · rw [h]
    refine Overlay.hides_unhide.2 ⟨hhides, ?_⟩
    rintro ⟨hsid, hdid⟩
    rw [hsame hs ha hsid, hsame hd hb hdid] at he
    exact he (by simp [naming])
  · rw [h]
    refine Overlay.hides_forget.2 ⟨hhides, fun hid => he ?_, fun hid => he ?_⟩
    · rw [hsame hn ha hid]
      simp [naming]
    · rw [hsame hn hb hid]
      simp [naming]

/-- Edits of the graph by others leave a pair hidden. They do not touch the filter of
    the view, and a node with one of the two numbers is still the node that it was. -/
theorem Concealed.edited {a b : Node} (hg : v.graph.WellFormed) (ht : v.Timely)
    (hc : v.Concealed a b) (h : Narrowed v v') (hfilter : v'.filter = v.filter) :
    v'.Concealed a b := by
  intro ha hb
  rw [hfilter]
  exact hc (h.contains hg ht ha) (h.contains hg ht hb)

/-- No answer of a view betrays an edge between two nodes. -/
structure Unseen (v : View) (a b : Node) : Prop where
  hasEdge_eq : CallGraph.hasEdge v a b = false
  not_mem_succs : b ∉ CallGraph.succs v a
  not_mem_preds : a ∉ CallGraph.preds v b
  not_mem_targets : ∀ site, b ∉ CallGraph.targets v a site
  sitesBetween_eq : CallGraph.sitesBetween v a b = []
  not_mem_edges : (a, b) ∉ CallGraph.edges v

/-- A hidden pair is betrayed by no answer, since all answers about edges come from one relation. -/
theorem Concealed.unseen {a b : Node} (hg : v.graph.WellFormed) (hc : v.Concealed a b) :
    v.Unseen a b := by
  have hlawful := hg.lawful
  -- All answers about edges come down to this one.
  have hedge : ¬ CallGraph.hasEdge v a b := by
    intro hab
    rcases hasEdge_iff.1 hab with ⟨ha, hb, hshown, _⟩
    rw [hc ha hb] at hshown
    exact absurd hshown (by simp)
  have htargets : ∀ site, b ∉ CallGraph.targets v a site :=
    fun site hb => hedge (target_edge hlawful hb).2.2
  refine ⟨by simpa using hedge, ?_, ?_, htargets, ?_, ?_⟩
  · rw [mem_succs_iff_hasEdge hlawful]
    exact hedge
  · rw [mem_preds_iff_hasEdge hlawful]
    exact hedge
  · refine List.eq_nil_iff_forall_not_mem.2 fun site hsite => htargets site ?_
    exact (lawful hlawful).mem_sitesBetween.1 hsite
  · rw [mem_edges_iff_hasEdge hlawful]
    exact hedge

end View

/-! ## A graph and all of its views -/

/-- A graph with the filters of all views that stand before it. -/
structure Shared where
  graph : Graph
  filters : List Filter
deriving DecidableEq

namespace Shared

/-- The view with a given place among the views. -/
def view? (s : Shared) (i : Nat) : Option View := (s.filters[i]?).map (View.mk s.graph)

/-- What anybody may do. -/
inductive Act where
  /-- Edit the graph directly. -/
  | edit (e : Graph.Edit)
  /-- Edit it through one of the views. -/
  | through (i : Nat) (e : View.Edit)
  /-- Put a further view before it. -/
  | watch (keep : IdSet) (hidden : Overlay)
deriving DecidableEq

/-- The graph and its views after an act. -/
def after (s : Shared) : Act → Shared
  | .edit e => { s with graph := s.graph.after e }
  | .through i e =>
    match s.view? i with
    | some v => ⟨(v.after e).graph, s.filters.set i (v.after e).filter⟩
    | none => s
  | .watch keep hidden => { s with filters := s.filters ++ [(View.of s.graph keep hidden).filter] }

/-- The graph and its views after a run of acts. -/
def afterAll (s : Shared) (acts : List Act) : Shared := acts.foldl after s

/-- The acts through a view that may show a hidden pair of it again. -/
def naming (i : Nat) (a b : Node) : List Act := (View.naming a b).map (.through i)

variable {s : Shared} {i : Nat} {v : View}

/-- A view has the graph that is shared and the filter at its place. -/
theorem view?_eq_some_iff : s.view? i = some v ↔ s.filters[i]? = some v.filter ∧ s.graph = v.graph := by
  rw [view?, Option.map_eq_some_iff]
  constructor
  · rintro ⟨f, hf, rfl⟩
    exact ⟨hf, rfl⟩
  · rintro ⟨hf, hgraph⟩
    exact ⟨v.filter, hf, by rw [hgraph]⟩

/-- What an act makes of a view. It is an edit through this view, or the filter of the view
    stays as it is while the graph is edited by somebody else. -/
theorem view?_after (hv : s.view? i = some v) (act : Act) :
    (∃ e, act = .through i e ∧ (s.after act).view? i = some (v.after e)) ∨
      ∃ es, (s.after act).view? i = some ⟨v.graph.afterAll es, v.filter⟩ := by
  rcases view?_eq_some_iff.1 hv with ⟨hfilter, hgraph⟩
  cases act with
  | edit e =>
      refine Or.inr ⟨[e], view?_eq_some_iff.2 ⟨hfilter, ?_⟩⟩
      rw [← hgraph]
      rfl
  | watch keep hidden =>
      refine Or.inr ⟨[], view?_eq_some_iff.2 ⟨?_, hgraph⟩⟩
      -- The new view stands behind all others.
      have hi : i < s.filters.length := (List.getElem?_eq_some_iff.1 hfilter).1
      change (s.filters ++ _)[i]? = _
      rw [List.getElem?_append_left hi]
      exact hfilter
  | through j e =>
      cases hj : s.view? j with
      | none =>
          have hsame : s.after (.through j e) = s := by rw [after, hj]
          rw [hsame]
          exact Or.inr ⟨[], hv⟩
      | some w =>
          have hafter : s.after (.through j e) =
              ⟨(w.after e).graph, s.filters.set j (w.after e).filter⟩ := by rw [after, hj]
          rw [hafter]
          by_cases hij : j = i
          · subst hij
            rw [hv, Option.some.injEq] at hj
            subst hj
            refine Or.inl ⟨e, rfl, view?_eq_some_iff.2 ⟨?_, rfl⟩⟩
            have hi : j < s.filters.length := (List.getElem?_eq_some_iff.1 hfilter).1
            exact List.getElem?_set_self hi
          · -- An edit through another view is an edit of the graph to this one.
            rcases (View.narrowed_after w e).edited with ⟨es, hes⟩
            refine Or.inr ⟨es, view?_eq_some_iff.2 ⟨?_, ?_⟩⟩
            · rw [List.getElem?_set_ne hij]
              exact hfilter
            · rw [← (view?_eq_some_iff.1 hj).2, hgraph] at hes
              exact hes

theorem narrowed_after (hv : s.view? i = some v) (act : Act) :
    ∃ v', (s.after act).view? i = some v' ∧ v.Narrowed v' := by
  rcases view?_after hv act with ⟨e, _, h⟩ | ⟨es, h⟩
  · exact ⟨_, h, View.narrowed_after v e⟩
  · exact ⟨_, h, ⟨es, rfl⟩, fun _ hi => hi⟩

/-- What a run can make of a view. Each act makes of it what a view may become, and so
    does the run. -/
theorem narrowed_afterAll (hv : s.view? i = some v) (acts : List Act) :
    ∃ v', (s.afterAll acts).view? i = some v' ∧ v.Narrowed v' := by
  induction acts generalizing s v with
  | nil => exact ⟨v, hv, View.Narrowed.refl v⟩
  | cons act rest ih =>
      rcases narrowed_after hv act with ⟨w, hw, hfirst⟩
      rcases ih hw with ⟨v', hv', hrest⟩
      exact ⟨v', hv', hfirst.trans hrest⟩

/-- An act that does not name a hidden pair leaves it hidden. -/
theorem concealed_after {a b : Node} (hg : v.graph.WellFormed) (ht : v.Timely)
    (hc : v.Concealed a b) (hv : s.view? i = some v) {act : Act} (hact : act ∉ naming i a b) {v' : View}
    (hv' : (s.after act).view? i = some v') : v'.Concealed a b := by
  rcases view?_after hv act with ⟨e, rfl, h⟩ | ⟨es, h⟩
  · rw [hv', Option.some.injEq] at h
    rw [h]
    exact hc.after hg ht fun he => hact (List.mem_map_of_mem he)
  · rw [hv', Option.some.injEq] at h
    rw [h]
    exact hc.edited hg ht ⟨⟨es, rfl⟩, fun _ hi => hi⟩ rfl

/-- A hidden pair stays hidden until it is named. The induction is along the acts, and
    what it needs of the view is kept by each of them: a graph that is well formed and
    numbers of its time. -/
theorem concealed_afterAll {a b : Node} (hg : v.graph.WellFormed) (ht : v.Timely)
    (hc : v.Concealed a b) (hv : s.view? i = some v) {acts : List Act}
    (hacts : ∀ act ∈ acts, act ∉ naming i a b) {v' : View}
    (hv' : (s.afterAll acts).view? i = some v') : v'.Concealed a b := by
  induction acts generalizing s v with
  | nil =>
      change s.view? i = some v' at hv'
      rw [hv, Option.some.injEq] at hv'
      rw [← hv']
      exact hc
  | cons act rest ih =>
      rw [List.forall_mem_cons] at hacts
      rcases narrowed_after hv act with ⟨w, hw, hnarrowed⟩
      have hcw := concealed_after hg ht hc hv hacts.1 hw
      exact ih (hnarrowed.wellFormed hg) (hnarrowed.timely hg ht) hcw hw hacts.2 hv'

/-- A view that keeps only numbers of its own time never shows a node that it did not
    show before, and a pair that it hides stays out of sight until an edit through the
    view names it, whatever is done meanwhile to the graph and through other views.

    The bound on the numbers is needed. A view may be given numbers that are yet to be
    handed out, and then it shows the nodes that get them. -/
theorem views_discover_nothing {g : Graph} (hg : g.Obtainable) (others : List Filter) (keep : IdSet)
    (hidden : Overlay) (hkeep : ∀ i ∈ keep, i ≤ CallGraph.maxId g) (earlier later : List Act) :
    let start := Shared.after ⟨g, others⟩ (.watch keep hidden)
    ∃ v v', (start.afterAll earlier).view? others.length = some v ∧
      (start.afterAll (earlier ++ later)).view? others.length = some v' ∧
      -- What is to be seen later was to be seen earlier, and at the beginning.
      (CallGraph.nodes v' ⊆ CallGraph.nodes v ∧
        CallGraph.nodes v ⊆ CallGraph.nodes (View.of g keep hidden)) ∧
      -- What is hidden earlier is out of sight later, unless it was named.
      ∀ a b, v.filter.hidden.hides a.id b.id →
        (∀ act ∈ later, act ∉ naming others.length a b) → v'.Unseen a b := by
  intro start
  let first := View.of g keep hidden
  have hfirst : start.view? others.length = some first :=
    view?_eq_some_iff.2 ⟨List.getElem?_concat_length, rfl⟩
  have hwf : first.graph.WellFormed := hg.wellFormed
  have htimely : first.Timely := by
    intro i hi
    have hle : i ≤ (g.slots.size : Int) - 1 := hkeep i hi
    change i < (g.slots.size : Int)
    omega
  rcases narrowed_afterAll hfirst earlier with ⟨v, hv, hearly⟩
  rcases narrowed_afterAll hv later with ⟨v', hv', hlate⟩
  have hsplit : start.afterAll (earlier ++ later) = (start.afterAll earlier).afterAll later :=
    List.foldl_append
  have hwfv := hearly.wellFormed hwf
  have htv := hearly.timely hwf htimely
  have hwfv' := hlate.wellFormed hwfv
  refine ⟨v, v', hv, by rw [hsplit]; exact hv', ⟨fun n hn => ?_, fun n hn => ?_⟩, ?_⟩
  · rw [View.mem_nodes hwfv'.lawful] at hn
    exact (View.mem_nodes hwfv.lawful).2 (hlate.contains hwfv htv hn)
  · rw [View.mem_nodes hwfv.lawful] at hn
    exact (View.mem_nodes hwf.lawful).2 (hearly.contains hwf htimely hn)
  · intro a b hhides hunnamed
    have hconcealed : v.Concealed a b := fun _ _ => hhides
    exact (concealed_afterAll hwfv htv hconcealed hv hunnamed hv').unseen hwfv'

/-- Somebody removes B and makes it anew, and others add the hidden call of A to itself again.
    A view that keeps every number shows the new B; the view of the first four numbers shows
    neither. -/
theorem views_discover_nothing_letters :
    let keep := IdSet.ofList [0, 1, 2, 3]
    let hidden : Overlay := Table.empty.insert 2 (IdSet.ofList [2])
    let wide : Filter := ⟨IdSet.ofList [0, 1, 2, 3, 4, 5], .empty⟩
    let a := View.lettered 2 "A"
    let earlier : List Act := [.through 0 (.removeNode (some (View.lettered 3 "B"))),
      .edit (.findOrCreate (some (.named ⟨"", "B", "()"⟩)) (some .everywhere))]
    let later : List Act := [.edit (.addEdge (some a) (some a)), .through 0 (.addEdge (some a) (some a))]
    let final := (Shared.after ⟨View.letters, [wide]⟩ (.watch keep hidden)).afterAll (earlier ++ later)
    ((final.view? 0).map fun v => (CallGraph.nodes v).map Node.id) = some [0, 1, 2, 4, 5] ∧
      ((final.view? 0).map fun v => CallGraph.hasEdge v a a) = some true ∧
      ((final.view? 1).map fun v => (CallGraph.nodes v).map Node.id) = some [0, 1, 2] ∧
      ∃ v, final.view? 1 = some v ∧ v.Unseen a a := by
  intro keep hidden wide a earlier later final
  -- After the others have acted the view still hides the call.
  have hhides : ((((Shared.after ⟨View.letters, [wide]⟩ (.watch keep hidden)).afterAll
      earlier).view? 1).map fun v => v.filter.hidden.hides a.id a.id) = some true := by
    decide +kernel
  have hg : View.letters.Obtainable := ⟨0, _, rfl⟩
  rcases views_discover_nothing hg [wide] keep hidden (by decide +kernel) earlier later
    with ⟨v, v', hv, hv', _, hunseen⟩
  refine ⟨by decide +kernel, by decide +kernel, by decide +kernel, v', hv', ?_⟩
  refine hunseen a a ?_ (by decide +kernel)
  have hv : ((Shared.after ⟨View.letters, [wide]⟩ (.watch keep hidden)).afterAll earlier).view? 1 =
    some v := hv
  rw [hv, Option.map_some, Option.some.injEq] at hhides
  exact hhides

end Shared

end CallAtlas
