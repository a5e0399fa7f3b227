import CallAtlas.Proofs.Prune.Sharing
import CallAtlas.Proofs.Refusals

/-!
# Edits Through a View

An edit through a view is two edits. The graph is changed first, and it may refuse; then the
filter is tidied, so that it forgets a node that has gone and shows a pair again that was
edited. Whoever holds a view edits both where they stand, and what was written to the graph
before it refused would stay written. `Through` makes the edits in this way. Since an edit of
a graph in place changes all or nothing, the same holds of the two together: the filter is
written only after the graph has accepted, and nothing can fail from then on.

A filter holds numbers, in three places: those that are kept, those of callers from whom
something is hidden, and those of hidden callees. A node that is removed has to go from all
three, also where it is hidden from others. `Filter.Names` speaks of all numbers that a filter
mentions. One lemma for each way of tidying says what it does to them, and a run of edits then
leaves no number behind that has no node.

## Main definitions

* `Filter.Names`: Every number that a filter mentions has a property.
* `Filter.Reveals`: A filter shows one pair again and is the same otherwise.
* `View.Current`: A view mentions only numbers of nodes of its graph.
* `View.HidesLive`: A run hides only pairs of nodes of the graph as it then is.
* `Through.edit`: An edit of a view where it stands.

## Theorems

* `Filter.Names.hide`, `Filter.Names.unhide`, `Filter.Names.forget`: What is mentioned after
  each way of tidying.
* `Through.run_edit`: An edit in place changes graph and filter, or neither.
* `View.Current.after`, `View.Current.afterAll`: Edits leave a view current.
* `View.edits_through_atomic`: What edits through a view do to the graph and to the view.
-/

namespace CallAtlas

/-! ## What a filter mentions -/

namespace Overlay

variable {o : Overlay} {a b i j : Int}

/-- Hiding an edge mentions its caller. -/
theorem mem_keys_hide : i ∈ (o.hide a b).keys ↔ i ∈ o.keys ∨ i = a := by
  rw [Table.mem_keys, Table.mem_keys, hide, Table.find?_insert]
  by_cases h : a = i
  · simp [h]
  · simp [h, Ne.symm h]

/-- Showing an edge again mentions the callers that were mentioned, also one from which
    nothing is hidden any more. -/
theorem mem_keys_unhide : i ∈ (o.unhide a b).keys ↔ i ∈ o.keys := by
  rw [Table.mem_keys, Table.mem_keys, unhide]
  cases hs : o.find? a with
  | none => rfl
  | some s =>
      simp only [Table.find?_insert]
      by_cases h : a = i
      · subst h
        simp [hs]
      · simp [h]

/-- A number that is forgotten is not mentioned as a caller. -/
theorem mem_keys_forget : i ∈ (o.forget j).keys ↔ i ∈ o.keys ∧ i ≠ j := by
  rw [Table.mem_keys, Table.mem_keys, forget, Table.find?_mapValues, Table.find?_erase,
    Option.isSome_map]
  by_cases h : j = i
  · simp [h]
  · simp [h, Ne.symm h]

end Overlay

namespace Filter

variable {f : Filter} {P Q : Int → Prop} {a b : Int}

/-- Every number that a filter mentions has a property. -/
structure Names (f : Filter) (P : Int → Prop) : Prop where
  keep : ∀ i ∈ f.keep, P i
  caller : ∀ i ∈ f.hidden.keys, P i
  callee : ∀ {i j}, f.hidden.hides i j → P j

/-- The filter `f'` is `f`, except that it does not hide the pair of `a` and `b`. -/
def Reveals (f : Filter) (a b : Int) (f' : Filter) : Prop :=
  f'.keep = f.keep ∧ ∀ i j, f'.hidden.hides i j ↔ f.hidden.hides i j ∧ ¬ (i = a ∧ j = b)

/-- The numbers that a filter mentions can be gone through. -/
theorem names_iff : f.Names P ↔ (∀ i ∈ f.keep.toList, P i) ∧
    ∀ e ∈ f.hidden.entries, P e.1 ∧ ∀ j ∈ e.2.toList, P j := by
  -- A pair is hidden if the entry of the caller has the callee.
  have hhides : ∀ {i j}, f.hidden.hides i j ↔ ∃ s, (i, s) ∈ f.hidden.entries ∧ j ∈ s.toList := by
    intro i j
    simp only [Overlay.hides_iff, Overlay.hiddenFrom, ← Table.find?_eq_some_iff, IdSet.mem_toList]
    cases f.hidden.find? i with
    | none => simp
    | some s => simp
  constructor
  · intro h
    exact ⟨h.keep, fun e he =>
      ⟨h.caller e.1 (List.mem_map_of_mem he), fun j hj => h.callee (hhides.2 ⟨e.2, he, hj⟩)⟩⟩
  · rintro ⟨hkeep, hhidden⟩
    refine ⟨hkeep, fun i hi => ?_, fun hj => ?_⟩
    · rcases List.mem_map.1 hi with ⟨e, he, rfl⟩
      exact (hhidden e he).1
    · rcases hhides.1 hj with ⟨s, hs, hmem⟩
      exact (hhidden _ hs).2 _ hmem

instance [DecidablePred P] : Decidable (f.Names P) := decidable_of_iff _ names_iff.symm

theorem Names.imp (h : f.Names P) (hPQ : ∀ i, P i → Q i) : f.Names Q :=
  ⟨fun i hi => hPQ i (h.keep i hi), fun i hi => hPQ i (h.caller i hi),
    fun hj => hPQ _ (h.callee hj)⟩

/-- Hiding an edge mentions its ends and nothing else. -/
theorem Names.hide (h : f.Names P) (ha : P a) (hb : P b) :
    Names { f with hidden := f.hidden.hide a b } P where
  keep := h.keep
  caller i hi := by
    rcases Overlay.mem_keys_hide.1 hi with hi | rfl
    · exact h.caller i hi
    · exact ha
  callee hj := by
    rcases Overlay.hides_hide.1 hj with hj | ⟨_, rfl⟩
    · exact h.callee hj
    · exact hb

theorem Names.unhide (h : f.Names P) : Names { f with hidden := f.hidden.unhide a b } P where
  keep := h.keep
  caller i hi := h.caller i (Overlay.mem_keys_unhide.1 hi)
  callee hj := h.callee (Overlay.hides_unhide.1 hj).1

/-- A number that is forgotten is not mentioned any more, neither as kept nor as a caller nor
    as a callee. -/
theorem Names.forget (h : f.Names P) :
    Names ⟨f.keep.erase a, f.hidden.forget a⟩ fun i => P i ∧ i ≠ a where
  keep i hi := ⟨h.keep i (IdSet.mem_erase.1 hi).1, (IdSet.mem_erase.1 hi).2⟩
  caller i hi := ⟨h.caller i (Overlay.mem_keys_forget.1 hi).1, (Overlay.mem_keys_forget.1 hi).2⟩
  callee hj := ⟨h.callee (Overlay.hides_forget.1 hj).1, (Overlay.hides_forget.1 hj).2.2⟩

theorem reveals_unhide : f.Reveals a b { f with hidden := f.hidden.unhide a b } :=
  ⟨rfl, fun _ _ => Overlay.hides_unhide⟩

end Filter

/-! ## Edits in place -/

namespace Through

open CallAtlas.View (Edit)

variable {v : View}

/-- An edit of the graph behind a view. Whatever becomes of the graph, the view has it. -/
def behind (edit : EStateM GraphError Graph Unit) : EStateM GraphError View Unit := fun v =>
  match edit v.graph with
  | .ok () g => .ok () { v with graph := g }
  | .error err g => .error err { v with graph := g }

/-- Removes a node from the graph and then from the filter. -/
def removeNode (n : Option Node) : EStateM GraphError View Unit := do
  behind (InPlace.removeNode n)
  match n with
  | some n =>
    modify fun v => { v with filter := { v.filter with keep := v.filter.keep.erase n.id } }
    modify fun v => { v with filter := { v.filter with hidden := v.filter.hidden.forget n.id } }
  | none => return

/-- Removes an edge from the graph and then from the overlay. -/
def removeEdge (src dst : Option Node) : EStateM GraphError View Unit := do
  behind (InPlace.removeEdge src dst)
  modify (·.unhide src dst)

/-- Adds an edge to the graph and then shows it, unless an end is not to be seen. -/
def addEdge (src dst : Option Node) : EStateM GraphError View Unit := do
  let v ← get
  if v.sees src && v.sees dst then
    behind (InPlace.addEdge src dst)
    modify (·.unhide src dst)

/-- An edit of a view where it stands. -/
def edit : Edit → EStateM GraphError View Unit
  | .addEdge src dst => addEdge src dst
  | .removeEdge src dst => removeEdge src dst
  | .removeNode n => removeNode n
  | .hide src dst => modify (·.hide src dst)

/-- The outcome of an edit that changes the view as it should or leaves it. -/
def outcome (v : View) : Except GraphError View → EStateM.Result GraphError View Unit
  | .ok v' => .ok () v'
  | .error err => .error err v

/-- An edit of the graph that leaves a refused graph as it was is followed by tidying,
    or leaves the view as it was. This is where it matters that the graph is edited
    first and the filter after it. -/
theorem run_behind_bind {edit : EStateM GraphError Graph Unit}
    {tidy : Unit → EStateM GraphError View Unit} {r : Except GraphError Graph} {f : Graph → Except GraphError View}
    (hedit : edit.run v.graph = InPlace.outcome v.graph r)
    (htidy : ∀ g, (tidy ()).run { v with graph := g } = outcome v (f g)) :
    (behind edit >>= tidy).run v = outcome v (r >>= f) := by
  have hgraph : edit v.graph = InPlace.outcome v.graph r := hedit
  cases r with
  | error err =>
      rw [EStateM.run_bind, EStateM.run, behind, hgraph]
      rfl
  | ok g =>
      rw [EStateM.run_bind, EStateM.run, behind, hgraph]
      exact htidy g

/-- An edit in place makes the whole change to graph and filter, or none. The steps in
    place are compared with the edit that gives a new view or an error, so what is known
    of the latter holds of the former. -/
theorem run_edit (v : View) (e : Edit) : (edit e).run v = outcome v (v.attempt e) := by
  cases e with
  | hide src dst => rfl
  | removeNode n =>
      -- The graph is edited in place first, and the filter only if that was accepted.
      refine run_behind_bind (InPlace.run_edit v.graph (.removeNode n)) fun g => ?_
      cases n with
      | none => rfl
      | some m => rfl
  | removeEdge src dst =>
      exact run_behind_bind (InPlace.run_edit v.graph (.removeEdge src dst)) fun _ => rfl
  | addEdge src dst =>
      rw [edit, addEdge, EStateM.run_bind, EStateM.run_get, View.attempt, View.addEdge]
      change EStateM.run (if _ then _ else _) v = _
      -- What cannot be seen is not touched, and there is nothing to refuse.
      by_cases hsees : v.sees src && v.sees dst
      · rw [if_pos hsees, if_pos hsees]
        exact run_behind_bind (InPlace.run_edit v.graph (.addEdge src dst)) fun _ => rfl
      · rw [if_neg hsees, if_neg hsees]
        rfl

end Through

namespace View

variable {v v' : View} {src dst : Option Node}

/-! ## Runs of edits -/

/-- The edit of the graph that an edit through a view asks for. Hiding asks for none. -/
def Edit.onGraph : Edit → Option Graph.Edit
  | .addEdge src dst => some (.addEdge src dst)
  | .removeEdge src dst => some (.removeEdge src dst)
  | .removeNode n => some (.removeNode n)
  | .hide _ _ => none

/-- The view after a run of edits. -/
def afterAll (v : View) (es : List Edit) : View := es.foldl after v

/-- A view mentions only numbers of nodes of its graph. -/
def Current (v : View) : Prop := v.filter.Names v.graph.Live

/-- The nodes between which an edit hides an edge. -/
def Edit.concealed : Edit → List Node
  | .hide src dst => [src, dst]
  | .addEdge _ _ | .removeEdge _ _ | .removeNode _ => []

/-- Whatever a run hides is a pair of nodes of the graph as it then is. -/
def HidesLive (v : View) : List Edit → Prop
  | [] => True
  | e :: rest => (∀ n ∈ e.concealed, v.graph.contains n) ∧ (v.after e).HidesLive rest

instance decidableHidesLive : (v : View) → (es : List Edit) → Decidable (v.HidesLive es)
  | _, [] => isTrue trivial
  | v, e :: rest =>
    have : Decidable ((v.after e).HidesLive rest) := decidableHidesLive (v.after e) rest
    inferInstanceAs (Decidable ((∀ n ∈ e.concealed, v.graph.contains n) ∧ _))

instance : Decidable v.Current :=
  have : DecidablePred v.graph.Live := fun i =>
    inferInstanceAs (Decidable ((v.graph.slot? i).isSome))
  inferInstanceAs (Decidable (v.filter.Names v.graph.Live))

/-- An edit of the graph leaves alone what it does not remove. -/
theorem live_after {g : Graph} (hg : g.WellFormed) {e : Graph.Edit} {i : Int} (hi : g.Live i)
    (hne : ∀ n, e = .removeNode (some n) → i ≠ n.id) : (g.after e).Live i := by
  rw [Graph.live_iff_node?] at hi ⊢
  rcases hg.after_cases e with ⟨_, hnode⟩ | ⟨u, c, _, hmade⟩ | ⟨n, he, _, _, hnode⟩
  · rw [hnode]
    exact hi
  · rw [hmade, Graph.node?_create]
    split
    · rfl
    · exact hi
  · rw [hnode, if_neg (hne n he)]
    exact hi

/-- An edit leaves a view current, if it hides nothing but nodes of the graph. A removed
    node is the only one whose number goes out of use, and the view forgets just that. -/
theorem Current.after (hv : v.Current) (hg : v.graph.WellFormed) {e : Edit}
    (he : ∀ n ∈ e.concealed, v.graph.contains n) : (v.after e).Current := by
  rcases v.after_cases e with h | ⟨s, d, rfl, h⟩ | ⟨s, d, _, _, _, h⟩ | ⟨s, d, _, _, _, h⟩ |
    ⟨n, _, _, h⟩
  · rw [h]
    exact hv
  · -- What is hidden has been asked for by its nodes, and these are there.
    rw [h]
    exact Filter.Names.hide hv (Graph.live_of_contains (he s (by simp [Edit.concealed])))
      (Graph.live_of_contains (he d (by simp [Edit.concealed])))
  · rw [h]
    refine Filter.Names.imp (Filter.Names.unhide hv) fun i hi => ?_
    exact live_after hg hi fun n hn => absurd hn (by simp)
  · rw [h]
    refine Filter.Names.imp (Filter.Names.unhide hv) fun i hi => ?_
    exact live_after hg hi fun n hn => absurd hn (by simp)
  · -- The number of the removed node is forgotten, and all others are still in use.
    rw [h]
    refine Filter.Names.imp (Filter.Names.forget hv) fun i hi => ?_
    refine live_after hg hi.1 fun m hm => ?_
    cases hm
    exact hi.2

theorem wellFormed_after (hg : v.graph.WellFormed) (e : Edit) : (v.after e).graph.WellFormed :=
  (narrowed_after v e).wellFormed hg

/-- A run of edits leaves a view current. Whether what it hides are nodes is asked of
    the graph at that point of the run, since an earlier edit may have removed one. -/
theorem Current.afterAll {es : List Edit} (hv : v.Current) (hg : v.graph.WellFormed)
    (hes : v.HidesLive es) : (v.afterAll es).Current := by
  induction es generalizing v with
  | nil => exact hv
  | cons e rest ih => exact ih (hv.after hg hes.1) (wellFormed_after hg e) hes.2

/-! ## What an accepted edit does -/

/-- A node that is removed is gone from the graph and is not mentioned by the view. -/
theorem removeNode_ok {n : Option Node} (h : v.removeNode n = .ok v') :
    ∃ m, n = some m ∧ v.graph.removeNode n = .ok v'.graph ∧
      v'.filter = ⟨v.filter.keep.erase m.id, v.filter.hidden.forget m.id⟩ := by
  rcases except_bind_eq_ok_iff.1 h with ⟨g, hg, hv'⟩
  rcases Graph.removeNode_eq_ok_iff.1 hg with ⟨_, s, hs, _⟩
  rcases Graph.node_of_require hs with ⟨rfl, _⟩
  rw [← Except.ok.inj hv']
  exact ⟨s.node, rfl, hg, rfl⟩

/-- An edge that the graph adds or removes has two ends, whose pair the view shows again. -/
theorem reveals_of_unhide {g : Graph} {a b : Node} (hsrc : src = some a) (hdst : dst = some b)
    (h : { v with graph := g }.unhide src dst = v') :
    v'.graph = g ∧ v.filter.Reveals a.id b.id v'.filter := by
  subst hsrc hdst h
  exact ⟨rfl, Filter.reveals_unhide⟩

/-- An edge that is removed has two ends, and the view shows their pair again. -/
theorem removeEdge_ok (h : v.removeEdge src dst = .ok v') :
    ∃ a b, src = some a ∧ dst = some b ∧ v.graph.removeEdge src dst = .ok v'.graph ∧
      v.filter.Reveals a.id b.id v'.filter := by
  rcases removeEdge_eq_ok_iff.1 h with ⟨g, hg, hv'⟩
  rcases Graph.removeEdge_eq_ok_iff.1 hg with ⟨_, s, hs, d, hd, _⟩
  have hsrc := (Graph.node_of_require hs).1
  have hdst := (Graph.node_of_require hd).1
  rcases reveals_of_unhide hsrc hdst hv' with ⟨rfl, hreveals⟩
  exact ⟨s.node, d.node, hsrc, hdst, hg, hreveals⟩

/-- An edge that is added between nodes to be seen is to be seen. The graph has it now,
    the filter does not hide it, and its ends are kept as before. -/
theorem addEdge_ok (hsees : v.sees src ∧ v.sees dst) (h : v.addEdge src dst = .ok v') :
    ∃ a b, src = some a ∧ dst = some b ∧ v.graph.addEdge src dst = .ok v'.graph ∧
      v'.hasEdge a b ∧ v.filter.Reveals a.id b.id v'.filter := by
  rcases addEdge_eq_ok_iff.1 h with ⟨hsa, hsb, g, hg, hv'⟩ | ⟨hnot, _⟩
  · rcases Graph.addEdge_eq_ok_iff.1 hg with ⟨_, s, hs, d, hd, hlink⟩
    rcases Graph.node_of_require hs with ⟨hsrc, hins⟩
    rcases Graph.node_of_require hd with ⟨hdst, hind⟩
    rcases reveals_of_unhide hsrc hdst hv' with ⟨rfl, hreveals⟩
    refine ⟨s.node, d.node, hsrc, hdst, hg, ?_, hreveals⟩
    rw [hsrc] at hsa
    rw [hdst] at hsb
    have hkeeps := Graph.keeps_link v.graph s.node.id d.node.id
    rw [hlink] at hkeeps
    have hcalls : v'.graph.Calls s.node.id d.node.id := by
      rw [← hlink]
      exact (Graph.calls_link (Graph.live_of_contains hins)).2 (Or.inr ⟨rfl, rfl⟩)
    -- Both ends could be seen before, and the filter keeps what it kept.
    have hsee : ∀ {n}, v.contains n → v'.contains n := by
      intro n hn
      rcases contains_iff.1 hn with ⟨hkeep, hin⟩
      exact contains_iff.2 ⟨by rw [hreveals.1]; exact hkeep, hkeeps.contains_iff.2 hin⟩
    refine hasEdge_iff.2 ⟨hsee hsa, hsee hsb, ?_, Graph.hasEdge_iff.2
      ⟨hkeeps.contains_iff.2 hins, hkeeps.contains_iff.2 hind, hcalls⟩⟩
    rw [Bool.eq_false_iff, ne_eq, hreveals.2]
    exact fun hhides => hhides.2 ⟨rfl, rfl⟩
  · exact absurd hsees hnot

/-- A view refuses an edit for the reason that its graph gives. It has no reasons of its
    own: hiding is never refused, and an edge between nodes that are not to be seen is
    passed over. -/
theorem attempt_error {e : Edit} {err : GraphError} (h : v.attempt e = .error err) :
    ∃ e', e.onGraph = some e' ∧ v.graph.attempt e' = .error err := by
  -- Tidying refuses nothing.
  have hbind : ∀ {x : Except GraphError Graph} {tidy : Graph → View},
      (x >>= fun g => pure (tidy g)) = Except.error err → x = .error err := by
    intro x tidy hx
    cases x with
    | error err' =>
        have hsame : (Except.error err' : Except GraphError View) = .error err := hx
        rw [Except.error.inj hsame]
    | ok g => exact absurd hx (by simp [bind, Except.bind, pure, Except.pure])
  cases e with
  | hide s d => exact absurd h (by simp [attempt])
  | removeEdge src dst => exact ⟨_, rfl, hbind h⟩
  | addEdge src dst =>
      rw [attempt, addEdge] at h
      split at h
      · exact ⟨_, rfl, hbind h⟩
      · exact absurd h (by simp [pure, Except.pure])
  | removeNode n =>
      refine ⟨_, rfl, ?_⟩
      cases n with
      | none => exact hbind h
      | some m => exact hbind h

/-- What edits through a view do. Each changes the graph as the edit of the graph would and
    tidies the filter, or it changes neither of them, and what a view mentions are nodes of its
    graph after every run. -/
theorem edits_through_atomic {g : Graph} (hg : g.Obtainable) {filter : Filter}
    (hcurrent : (View.mk g filter).Current) {es : List Edit}
    (hes : (View.mk g filter).HidesLive es) :
    let v := (View.mk g filter).afterAll es
    v.Current ∧
    -- A refused edit leaves the graph and the view, and it is the graph that refuses it.
    (∀ e err v', (Through.edit e).run v = .error err v' → v' = v ∧ v.attempt e = .error err ∧
      ∃ e', e.onGraph = some e' ∧ v.graph.attempt e' = .error err) ∧
    (∀ e v', (Through.edit e).run v = .ok () v' → v.attempt e = .ok v') ∧
    -- A removed node is mentioned nowhere, and nothing else is forgotten.
    (∀ n v', (Through.edit (.removeNode n)).run v = .ok () v' →
      ∃ m, n = some m ∧ v.graph.removeNode n = .ok v'.graph ∧ v'.filter.Names (· ≠ m.id) ∧
        (∀ i, i ∈ v'.filter.keep ↔ i ∈ v.filter.keep ∧ i ≠ m.id) ∧
        ∀ i j, v'.filter.hidden.hides i j ↔ v.filter.hidden.hides i j ∧ i ≠ m.id ∧ j ≠ m.id) ∧
    -- A removed edge is not hidden any more.
    (∀ src dst v', (Through.edit (.removeEdge src dst)).run v = .ok () v' →
      ∃ a b, src = some a ∧ dst = some b ∧ v.graph.removeEdge src dst = .ok v'.graph ∧
        v.filter.Reveals a.id b.id v'.filter) ∧
    -- An edge that is added between nodes to be seen is to be seen.
    (∀ src dst v', v.sees src ∧ v.sees dst → (Through.edit (.addEdge src dst)).run v = .ok () v' →
      ∃ a b, src = some a ∧ dst = some b ∧ v.graph.addEdge src dst = .ok v'.graph ∧
        v'.hasEdge a b ∧ v.filter.Reveals a.id b.id v'.filter) ∧
    -- Any other edge is passed over, also if the graph is frozen.
    (∀ src dst, ¬ (v.sees src ∧ v.sees dst) →
      (Through.edit (.addEdge src dst)).run v = .ok () v) ∧
    -- Hiding is a matter of the view alone.
    ∀ s d, ∃ v', (Through.edit (.hide s d)).run v = .ok () v' ∧ v'.graph = v.graph ∧
      v'.filter.keep = v.filter.keep ∧
      ∀ i j, v'.filter.hidden.hides i j ↔ v.filter.hidden.hides i j ∨ (i = s.id ∧ j = d.id) := by
  intro v
  have hplace := Through.run_edit v
  have hok : ∀ e v', (Through.edit e).run v = .ok () v' → v.attempt e = .ok v' := by
    intro e v' hrun
    rw [hplace] at hrun
    cases he : v.attempt e with
    | error err => rw [he] at hrun; exact absurd hrun (by simp [Through.outcome])
    | ok w =>
        rw [he, Through.outcome, EStateM.Result.ok.injEq] at hrun
        rw [hrun.2]
  refine ⟨hcurrent.afterAll hg.wellFormed hes, ?_, hok, ?_,
    fun src dst v' hrun => removeEdge_ok (hok _ v' hrun),
    fun src dst v' hsees hrun => addEdge_ok hsees (hok _ v' hrun), ?_,
    fun s d => ⟨v.hide s d, rfl, rfl, rfl, fun _ _ => Overlay.hides_hide⟩⟩
  · intro e err v' hrun
    rw [hplace] at hrun
    cases he : v.attempt e with
    | ok w => rw [he] at hrun; exact absurd hrun (by simp [Through.outcome])
    | error err' =>
        rw [he, Through.outcome, EStateM.Result.error.injEq] at hrun
        rcases hrun with ⟨rfl, rfl⟩
        exact ⟨rfl, rfl, attempt_error he⟩
  · intro n v' hrun
    rcases removeNode_ok (hok _ v' hrun) with ⟨m, hn, hgraph, hfilter⟩
    rw [hfilter]
    have hall : v.filter.Names fun _ => True :=
      ⟨fun _ _ => trivial, fun _ _ => trivial, fun _ => trivial⟩
    exact ⟨m, hn, hgraph, hall.forget.imp fun _ hi => hi.2, fun i => IdSet.mem_erase,
      fun i j => Overlay.hides_forget⟩
  · intro src dst hsees
    have hpass : v.addEdge src dst = .ok v := addEdge_eq_ok_iff.2 (Or.inr ⟨hsees, rfl⟩)
    rw [hplace, attempt, hpass]
    rfl

/-- A run through a view of A, B and C removes C, which was hidden from A and from itself. A node
    of another graph with its number was refused before that. An edge to C is then passed over,
    and so is an edge without a caller if the graph is frozen. -/
theorem edits_through_atomic_letters :
    let a := lettered 2 "A"
    let b := lettered 3 "B"
    let c := lettered 4 "C"
    let filter : Filter := ⟨IdSet.ofList [0, 1, 2, 3, 4],
      (Table.empty.insert 2 (IdSet.ofList [3, 4])).insert 4 (IdSet.ofList [2, 4])⟩
    let es : List Edit :=
      [.hide b a, .removeNode (some { c with serial := 7 }), .removeNode (some c)]
    let v := (View.mk letters filter).afterAll es
    (v.filter.keep = IdSet.ofList [0, 1, 2, 3] ∧ v.filter.hidden.keys = [2, 3] ∧
        v.filter.hidden.hides 2 3 ∧ v.filter.hidden.hides 3 2) ∧
      v.Current ∧ (Through.edit (.addEdge (some b) (some c))).run v = .ok () v ∧
      (Through.edit (.addEdge none (some a))).run ⟨letters.freeze, filter⟩ =
        .ok () ⟨letters.freeze, filter⟩ := by
  intro a b c filter es v
  have hg : letters.Obtainable := ⟨0, _, rfl⟩
  have hcurrent : (View.mk letters filter).Current := by decide +kernel
  have hes : (View.mk letters filter).HidesLive es := by decide +kernel
  have hfreeze : (View.mk letters.freeze filter).Current := by decide +kernel
  have hnone : (View.mk letters.freeze filter).HidesLive [] := trivial
  have hall := edits_through_atomic hg hcurrent hes
  have hfrozen := edits_through_atomic (hg.attempt (e := .freeze) rfl) hfreeze hnone
  exact ⟨by decide +kernel, hall.1, hall.2.2.2.2.2.2.1 _ _ (by decide +kernel),
    hfrozen.2.2.2.2.2.2.1 _ _ (by decide +kernel)⟩

end View

end CallAtlas
