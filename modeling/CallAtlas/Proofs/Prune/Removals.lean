import CallAtlas.Prune.View
import CallAtlas.Proofs.Growth

/-!
# Removing What a View Hides

A view keeps some numbers and hides some edges. The same can be had for good, by
removing every hidden edge and every node that is not kept. The removals may be made
in any order and any number of times, and some of them are then refused: an edge
cannot be removed once one of its ends is gone. It does not matter. Whatever the
order, what is left is the graph pruned to the kept numbers and shown edges.

The proof follows the sequence. After some of the removals the graph is pruned to
numbers and edges of which two things are known: nothing that the view shows has gone,
and everything that was asked to go has gone. A refused removal keeps this because its
edge had gone already. When all removals have been made the two meet.

## Main definitions

* `Overlay.shown`: The edges that a view shows.
* `Graph.Removes`: The removals that make a view permanent.
* `Graph.removals`: These removals in one order.
* `Graph.Gone`: What an edit was to remove has gone.
* `Graph.Partly`: Some of the removals have been made.

## Theorems

* `Graph.Pruned.congr`: Only live numbers and edges matter.
* `Graph.Partly.after_edge`, `Graph.Partly.after_node`: One more removal has been made.
* `Graph.Partly.afterAll`: A sequence of removals has been made.
* `Graph.pruned_afterAll`: All removals together, in any order.
-/

namespace CallAtlas

namespace Overlay

/-- Whether an edge is one that a view shows: both ends are kept, and it is not hidden. -/
def shown (keep : IdSet) (hidden : Overlay) (a b : Int) : Bool :=
  keep.contains a && keep.contains b && !hidden.hides a b

theorem shown_iff {keep : IdSet} {hidden : Overlay} {a b : Int} :
    shown keep hidden a b ↔ a ∈ keep ∧ b ∈ keep ∧ hidden.hides a b = false := by
  simp [shown, and_assoc]

end Overlay

namespace Graph

variable {g g₁ : Graph} {keep : IdSet} {hidden : Overlay}

/-- The removals that make a view of a graph permanent. -/
inductive Removes (g : Graph) (keep : IdSet) (hidden : Overlay) : Edit → Prop
  | edge {src dst : Node} : g.contains src → g.contains dst → hidden.hides src.id dst.id →
      Removes g keep hidden (.removeEdge (some src) (some dst))
  | node {n : Node} : g.contains n → n.kind = .ordinary → n.id ∉ keep →
      Removes g keep hidden (.removeNode (some n))

/-- The removals that make a view permanent, edges first. -/
def removals (g : Graph) (keep : IdSet) (hidden : Overlay) : List Edit :=
  (g.nodes.flatMap fun src => (g.nodes.filter fun dst => hidden.hides src.id dst.id).map
      fun dst => .removeEdge (some src) (some dst)) ++
    (g.nodes.filter fun n => n.kind = .ordinary && !keep.contains n.id).map
      fun n => .removeNode (some n)

/-- The list has the removals that make the view permanent. -/
theorem WellFormed.mem_removals (hg : WellFormed g) {e : Edit} :
    e ∈ g.removals keep hidden ↔ Removes g keep hidden e := by
  simp only [removals, List.mem_append, List.mem_flatMap, List.mem_map, List.mem_filter,
    ← hg.contains_iff_mem_nodes, Bool.and_eq_true, decide_eq_true_eq, Bool.not_eq_true',
    IdSet.contains, decide_eq_false_iff_not]
  constructor
  · rintro (⟨src, hsrc, dst, ⟨hdst, hhides⟩, rfl⟩ | ⟨n, ⟨hn, hkind, hdrop⟩, rfl⟩)
    · exact .edge hsrc hdst hhides
    · exact .node hn hkind hdrop
  · intro he
    cases he with
    | edge hsrc hdst hhides => exact Or.inl ⟨_, hsrc, _, ⟨hdst, hhides⟩, rfl⟩
    | node hn hkind hdrop => exact Or.inr ⟨_, ⟨hn, hkind, hdrop⟩, rfl⟩

/-- What is kept of numbers without a node, and shown of pairs without an edge, does not
    matter. So two ways of pruning have to be compared only where the graph has
    something. -/
theorem Pruned.congr {keeps keeps' : Int → Bool} {shows shows' : Int → Int → Bool}
    (h : Pruned keeps shows g g₁) (hg : WellFormed g)
    (hends : ∀ {a b}, shows' a b → keeps' a ∧ keeps' b)
    (hkeeps : ∀ i, g.Live i → keeps i = keeps' i)
    (hshows : ∀ a b, g.Calls a b → shows a b = shows' a b) : Pruned keeps' shows' g g₁ := by
  refine ⟨hends, h.serial, h.size, h.frozen, fun i => ?_, ?_⟩
  · rw [h.slot?]
    cases hs : g.slot? i with
    | none => simp
    | some s =>
        -- The edges of a slot are calls of the graph, so the two ways agree on them.
        have hsucc : ∀ d ∈ s.succs, shows i d = shows' i d :=
          fun d hd => hshows i d ⟨s, hs, hd⟩
        have hpred : ∀ p ∈ s.preds, shows p i = shows' p i :=
          fun p hp => hshows p i (hg.calls_iff.2 ⟨s, hs, hp⟩)
        have htargets : s.targets.mapValues (·.filter (shows i)) =
            s.targets.mapValues (·.filter (shows' i)) :=
          Table.mapValues_congr fun site t ht =>
            IdSet.filter_congr fun d hd => hsucc d (hg.target_called hs ht hd)
        rw [hkeeps i (live_of_slot? hs), Option.map_some, Option.map_some, Slot.restrict,
          Slot.restrict, IdSet.filter_congr hsucc, IdSet.filter_congr hpred, htargets]
  · -- Entrypoints are numbers of nodes.
    rw [h.entrypoints]
    exact List.filter_congr fun i hi => hkeeps i (hg.entry_live hi)

/-- What an edit was to remove has gone. -/
def Gone (keeps : Int → Bool) (shows : Int → Int → Bool) : Edit → Prop
  | .removeEdge (some src) (some dst) => ¬ shows src.id dst.id
  | .removeNode (some n) => ¬ keeps n.id
  | _ => True

/-- Some of the removals have been made: nothing that is to be seen has gone, and
    everything that was asked to go has gone. -/
def Partly (g : Graph) (keep : IdSet) (hidden : Overlay) (done : List Edit) (g₁ : Graph) : Prop :=
  ∃ keeps shows, Pruned keeps shows g g₁ ∧ (∀ i ∈ keep, keeps i) ∧
    (∀ a b, Overlay.shown keep hidden a b → shows a b) ∧ ∀ e ∈ done, Gone keeps shows e

theorem partly_nil (g : Graph) (keep : IdSet) (hidden : Overlay) : Partly g keep hidden [] g :=
  ⟨_, _, Pruned.refl g, fun _ _ => rfl, fun _ _ _ => rfl, fun _ h => absurd h List.not_mem_nil⟩

/-- What has gone does not come back by removing more. -/
theorem Gone.and {keeps keeps' : Int → Bool} {shows shows' : Int → Int → Bool} {e : Edit}
    (h : Gone keeps shows e) :
    Gone (fun i => keeps i && keeps' i) (fun a b => shows a b && shows' a b) e := by
  unfold Gone at h ⊢
  split
  · exact fun hshown => h (Bool.and_eq_true_iff.1 hshown).1
  · exact fun hkept => h (Bool.and_eq_true_iff.1 hkept).1
  · trivial

theorem Pruned.contains_iff {keeps : Int → Bool} {shows : Int → Int → Bool}
    (h : Pruned keeps shows g g₁) {n : Node} : g₁.contains n ↔ keeps n.id ∧ g.contains n := by
  rw [Graph.contains_iff, Graph.contains_iff, h.node?_eq_some_iff]

/-- What is accepted as an argument is a node of the graph. -/
theorem contains_of_require {n : Node} {s : Slot} (h : g.require (some n) = .ok s) :
    g.contains n := by
  rcases require_eq_ok_iff.1 h with ⟨hn, hs⟩
  rw [Option.some.injEq] at hn
  rw [hn, contains_iff]
  exact node?_eq_some_iff.2 ⟨s, hs, rfl⟩

/-- What is accepted as an argument is the node of the slot that was found. -/
theorem node_of_require {n : Option Node} {s : Slot} (h : g.require n = .ok s) :
    n = some s.node ∧ g.contains s.node := by
  have hn := (require_eq_ok_iff.1 h).1
  rw [hn] at h
  exact ⟨hn, contains_of_require h⟩

/-- Removing an edge is refused if one of its ends is not there. -/
theorem after_removeEdge (hf : g.frozen = false) (src dst : Node) :
    g.after (.removeEdge (some src) (some dst)) =
      if g.contains src ∧ g.contains dst then g.unlink src.id dst.id else g := by
  split
  · next hboth =>
    rcases require_of_contains hboth.1 with ⟨s, hs, hsid⟩
    rcases require_of_contains hboth.2 with ⟨d, hd, hdid⟩
    rw [← hsid, ← hdid]
    exact after_of_attempt (e := .removeEdge (some src) (some dst))
      (removeEdge_eq_ok_iff.2 ⟨hf, s, hs, d, hd, rfl⟩)
  · -- An edit is accepted only if both ends are there.
    next hnot =>
    unfold after
    split
    · next g' hok =>
      rcases removeEdge_eq_ok_iff.1 hok with ⟨_, s, hs, d, hd, _⟩
      exact absurd ⟨contains_of_require hs, contains_of_require hd⟩ hnot
    · rfl

/-- Removing an ordinary node is refused if it is not there. -/
theorem after_removeNode (hf : g.frozen = false) {n : Node} (hk : n.kind = .ordinary) :
    (∃ s, g.slot? n.id = some s ∧ g.after (.removeNode (some n)) = g.discard s) ∨
      (¬ g.contains n ∧ g.after (.removeNode (some n)) = g) := by
  by_cases hn : g.contains n
  · rcases node?_eq_some_iff.1 (contains_iff.1 hn) with ⟨s, hs, rfl⟩
    refine Or.inl ⟨s, hs, ?_⟩
    exact after_of_attempt (e := .removeNode (some s.node))
      (removeNode_eq_ok_iff.2 ⟨hf, s, require_eq_ok_iff.2 ⟨rfl, hs⟩, hk, rfl⟩)
  · -- A node that has gone cannot be found again under its number.
    refine Or.inr ⟨hn, ?_⟩
    unfold after
    split
    · next g' hok =>
      rcases removeNode_eq_ok_iff.1 hok with ⟨_, s, hs, _⟩
      exact absurd (contains_of_require hs) hn
    · rfl

/-- The removal of one more edge, which is refused if an end has gone and took the edge
    with it. In both cases the edge has gone afterwards, and nothing that is shown has:
    a hidden edge is not shown. -/
theorem Partly.after_edge {done : List Edit} (h : Partly g keep hidden done g₁)
    (hg₁ : WellFormed g₁) (hf : g₁.frozen = false) {src dst : Node} (hsrc : g.contains src)
    (hdst : g.contains dst) (hhides : hidden.hides src.id dst.id) :
    Partly g keep hidden (done ++ [.removeEdge (some src) (some dst)])
      (g₁.after (.removeEdge (some src) (some dst))) := by
  rcases h with ⟨keeps, shows, hpruned, hkeep, hshow, hgone⟩
  rw [after_removeEdge hf]
  split
  · refine ⟨_, _, hpruned.trans (hg₁.pruned_unlink src.id dst.id), ?_, ?_, ?_⟩
    · intro i hi
      rw [hkeep i hi]
      rfl
    · intro a b hab
      -- A hidden edge is not shown, so a shown edge is another one.
      have hother : ¬ a = src.id ∨ ¬ b = dst.id := by
        rw [← not_and_or]
        rintro ⟨rfl, rfl⟩
        rw [Overlay.shown_iff, hhides] at hab
        exact absurd hab.2.2 (by simp)
      simpa [hshow a b hab] using hother
    · rw [List.forall_mem_append, List.forall_mem_singleton]
      exact ⟨fun e he => (hgone e he).and, by simp [Gone]⟩
  · -- One of the ends is not there, so the edge has gone with it.
    next hnot =>
    refine ⟨keeps, shows, hpruned, hkeep, hshow, ?_⟩
    rw [List.forall_mem_append, List.forall_mem_singleton]
    refine ⟨hgone, fun hshown => hnot ?_⟩
    rcases hpruned.ends hshown with ⟨hks, hkd⟩
    exact ⟨hpruned.contains_iff.2 ⟨hks, hsrc⟩, hpruned.contains_iff.2 ⟨hkd, hdst⟩⟩

/-- The removal of one more node, which is refused if the node has gone. The node takes
    its edges with it. None of them is shown, since the node is not kept. -/
theorem Partly.after_node {done : List Edit} (h : Partly g keep hidden done g₁)
    (hg₁ : WellFormed g₁) (hf : g₁.frozen = false) {n : Node} (hn : g.contains n)
    (hkind : n.kind = .ordinary) (hdrop : n.id ∉ keep) :
    Partly g keep hidden (done ++ [.removeNode (some n)])
      (g₁.after (.removeNode (some n))) := by
  rcases h with ⟨keeps, shows, hpruned, hkeep, hshow, hgone⟩
  -- A kept number is not that of the removed node.
  have hne : ∀ {i}, i ∈ keep → i ≠ n.id := fun hi h => hdrop (h ▸ hi)
  rcases after_removeNode hf hkind with ⟨s, hs, hafter⟩ | ⟨hnot, hafter⟩
  · rw [hafter]
    refine ⟨_, _, hpruned.trans (hg₁.pruned_discard hs), ?_, ?_, ?_⟩
    · intro i hi
      simp [hkeep i hi, hne hi]
    · intro a b hab
      rcases Overlay.shown_iff.1 hab with ⟨ha, hb, _⟩
      simp [hshow a b hab, hne ha, hne hb]
    · rw [List.forall_mem_append, List.forall_mem_singleton]
      exact ⟨fun e he => (hgone e he).and, by simp [Gone]⟩
  · rw [hafter]
    refine ⟨keeps, shows, hpruned, hkeep, hshow, ?_⟩
    rw [List.forall_mem_append, List.forall_mem_singleton]
    exact ⟨hgone, fun hk => hnot (hpruned.contains_iff.2 ⟨hk, hn⟩)⟩

/-- Removals leave a graph that takes further ones. -/
theorem frozen_after_removes (hf : g₁.frozen = false) (hg₁ : WellFormed g₁) {e : Edit}
    (he : Removes g keep hidden e) : (g₁.after e).frozen = false := by
  cases he with
  | edge hsrc hdst _ =>
      -- Neither the removal of an edge nor its refusal freezes a graph.
      rw [after_removeEdge hf]
      split
      · rw [(hg₁.pruned_unlink _ _).frozen]
        exact hf
      · exact hf
  | node hn hkind _ =>
      rcases after_removeNode hf hkind with ⟨s, hs, hafter⟩ | ⟨_, hafter⟩
      · rw [hafter, (hg₁.pruned_discard hs).frozen]
        exact hf
      · rw [hafter]
        exact hf

/-- A sequence of removals, one after the other. The order is that of the list and plays
    no part in what is known afterwards. -/
theorem Partly.afterAll :
    ∀ (es : List Edit) {done : List Edit} {g₁ : Graph}, Partly g keep hidden done g₁ →
      WellFormed g₁ → g₁.frozen = false → (∀ e ∈ es, Removes g keep hidden e) →
      Partly g keep hidden (done ++ es) (g₁.afterAll es) := by
  intro es
  induction es with
  | nil =>
      intro done g₁ h _ _ _
      rw [List.append_nil]
      exact h
  | cons e rest ih =>
      intro done g₁ h hg₁ hf hall
      have he := hall e List.mem_cons_self
      -- The removal is of an edge or of a node, and each was dealt with above.
      have hnext : Partly g keep hidden (done ++ [e]) (g₁.after e) := by
        cases he with
        | edge hsrc hdst hhides => exact h.after_edge hg₁ hf hsrc hdst hhides
        | node hn hkind hdrop => exact h.after_node hg₁ hf hn hkind hdrop
      have hrest := ih hnext (hg₁.after e) (frozen_after_removes hf hg₁ he)
        (fun e' he' => hall e' (List.mem_cons_of_mem _ he'))
      rw [List.append_assoc, List.singleton_append] at hrest
      exact hrest

/-- All removals together, in any order, prune the graph to the kept numbers and shown
    edges. What is to be seen has not gone, and what is not to be seen was asked to go,
    so where the graph has something the two sides are equal. -/
theorem pruned_afterAll (hg : WellFormed g) (hf : g.frozen = false) (hroot : rootId ∈ keep)
    (hclinit : clinitId ∈ keep) {es : List Edit} (hes : ∀ e, e ∈ es ↔ Removes g keep hidden e) :
    Pruned keep.contains (Overlay.shown keep hidden) g (g.afterAll es) := by
  rcases Partly.afterAll es (partly_nil g keep hidden) hg hf (fun e => (hes e).1)
    with ⟨keeps, shows, hpruned, hkeep, hshow, hgone⟩
  rw [List.nil_append] at hgone
  -- A number that is not kept belongs to an ordinary node, whose removal was asked.
  have hdropped : ∀ i, g.Live i → i ∉ keep → ¬ keeps i := by
    intro i hi hnot
    rcases hg.exists_contains hi with ⟨n, hn, rfl⟩
    rcases hg.kind_cases hn with ⟨hid, _⟩ | ⟨hid, _⟩ | ⟨_, _, hkind⟩
    · exact absurd (hid ▸ hroot) hnot
    · exact absurd (hid ▸ hclinit) hnot
    · exact hgone _ ((hes _).2 (.node hn hkind hnot))
  refine hpruned.congr hg (fun hab => ?_) (fun i hi => ?_) (fun a b hab => ?_)
  · rcases Overlay.shown_iff.1 hab with ⟨ha, hb, _⟩
    exact ⟨IdSet.contains_iff.2 ha, IdSet.contains_iff.2 hb⟩
  · rw [Bool.eq_iff_iff, IdSet.contains_iff]
    refine ⟨fun hk => ?_, hkeep i⟩
    by_contra hnot
    exact hdropped i hi hnot hk
  · rw [Bool.eq_iff_iff]
    refine ⟨fun hs => ?_, hshow a b⟩
    rcases hpruned.ends hs with ⟨hka, hkb⟩
    rw [Overlay.shown_iff]
    refine ⟨?_, ?_, ?_⟩
    · by_contra hnot
      exact hdropped a hab.live_left hnot hka
    · by_contra hnot
      exact hdropped b (hg.live_right hab) hnot hkb
    · by_contra hhides
      rcases hg.exists_contains hab.live_left with ⟨src, hsrc, rfl⟩
      rcases hg.exists_contains (hg.live_right hab) with ⟨dst, hdst, rfl⟩
      exact hgone _ ((hes _).2 (.edge hsrc hdst (by simpa using hhides))) hs

end Graph

end CallAtlas
