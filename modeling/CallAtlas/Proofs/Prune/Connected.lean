import CallAtlas.Proofs.Prune.Views
import CallAtlas.Proofs.Reach
import CallAtlas.Prune.Find

/-!
# What is Kept is Connected

Pruning walks one graph and shows another. The traversal goes over the graph without
the hidden edges, cut down to what these leave reachable, and what it keeps becomes the
filter of a view of the stored graph. A reader of that view starts at the fake root.
This module shows that the reader gets everywhere: a path of shown edges through kept
nodes leads to each kept node.

Nodes are kept in three ways. The traversal keeps the path it has come by when a node
is accepted, and also when it meets a node that was kept earlier, and the extension
keeps callees of nodes it has come to, ahead of the traversal. Each of the three adds
nodes to which kept nodes lead, so each leaves what is kept connected, whatever was
kept before and in which order it was.

The recursion of the traversal is dealt with once, in `visit_keeps`, for any property
of what is kept.

## Main definitions

* `Prune.Trail`: The path by which the traversal comes to a node.
* `Prune.Joined`: A path through kept nodes leads to a node.
* `Prune.Connected`: Each kept number is that of a node so joined.
* `Prune.KeepsConnected`: The view of what is kept is connected from its root.

## Theorems

* `Prune.visit_keeps`: What keeping a path and extending keep, the traversal keeps.
* `Prune.Connected.keepPath`, `Prune.Connected.extend`: Both leave what is kept connected.
* `Prune.connected_findNodes`: What the traversal keeps is connected.
* `Prune.keepsConnected_refined`: So is the view of it, if the traversal goes over a refined one.
* `Prune.findNodes_keepsConnected`: A reader of the pruned view reaches all that is kept.
-/

namespace CallAtlas

namespace Prune

open CallGraph (Lawful succs)

variable {G : Type} [CallGraph G] {r : G} {root n m : Node} {keep : IdSet} {path : List Node}

/-! ## The traversal -/

/-- The traversal comes to a node by a path from the root. -/
inductive Trail (r : G) (root : Node) : List Node → Node → Prop
  | start : Trail r root [] root
  | call {path : List Node} {n m : Node} : Trail r root path n → m ∈ succs r n →
      Trail r root (path ++ [n]) m

/-- The walk outward from a node, before its first round. -/
def ballAt (keep : IdSet) (n : Node) : Ball :=
  { keep, seen := IdSet.empty.insert n.id, round := [n] }

/-- What keeping a path and extending from its end keep of the kept numbers, the
    traversal keeps, and it comes to an end if the caller waits for ever. The induction
    is on the room, which bounds how deep the traversal may go. At each callee there are
    three cases: it is visited, or it makes the path be kept, or it is passed over. -/
theorem visit_keeps {motive : IdSet → Prop} {accept : KeepPolicy} {depth : Nat}
    (hpath : ∀ {path n} {keep : IdSet}, Trail r root path n → motive keep →
      motive (keep.insertAll ((path ++ [n]).map (·.id))))
    (hextend : ∀ {path n} {keep : IdSet}, Trail r root path n →
      motive (keep.insertAll ((path ++ [n]).map (·.id))) →
      motive (spread r depth (ballAt (keep.insertAll ((path ++ [n]).map (·.id))) n))) :
    ∀ (room : Nat) {path n s}, Trail r root path n → s.life.polls = none → motive s.keep →
      ∃ s', visit r accept depth room path n s = .ok s' ∧ s'.life.polls = none ∧
        motive s'.keep := by
  intro room
  induction room with
  | zero =>
      intro path n s _ hlife hs
      exact ⟨s, rfl, hlife, hs⟩
  | succ room ih =>
      intro path n s htrail hlife hs
      -- A callee is visited, or it makes the path be kept, or it is passed over.
      have hcallees : ∃ s', (succs r n).foldlM (fun s t =>
          if t.id ∉ s.marked then visit r accept depth room (path ++ [n]) t s
          else if t.id ∈ s.keep then pure (s.keepPath (path ++ [n]))
          else pure s) { s with marked := s.marked.insert n.id } = .ok s' ∧
          s'.life.polls = none ∧ motive s'.keep := by
        have hfold := foldlM_ok (r := id) (l := succs r n)
          (f := fun s t =>
            if t.id ∉ s.marked then visit r accept depth room (path ++ [n]) t s
            else if t.id ∈ s.keep then pure (s.keepPath (path ++ [n]))
            else pure s)
          (b := { s with marked := s.marked.insert n.id })
          (P := fun _ s' => s'.life.polls = none ∧ motive s'.keep)
        rw [List.map_id] at hfold
        refine hfold ?_ ⟨hlife, hs⟩
        intro done t rest s' hl hs'
        have ht : t ∈ succs r n := by
          rw [hl]
          exact List.mem_append_right done List.mem_cons_self
        by_cases hmarked : t.id ∉ s'.marked
        · simp only [id, if_pos hmarked]
          exact ih (htrail.call ht) hs'.1 hs'.2
        · simp only [id, if_neg hmarked]
          by_cases hkept : t.id ∈ s'.keep
          · rw [if_pos hkept]
            exact ⟨_, rfl, hs'.1, hpath htrail hs'.2⟩
          · rw [if_neg hkept]
            exact ⟨s', rfl, hs'⟩
      rcases hcallees with ⟨s', hok, hlife', hs'⟩
      unfold visit
      rw [Lifetime.poll_of_unbounded hlife]
      simp only [hok]
      by_cases haccept : accept n
      · refine ⟨(({ s' with asked := s'.asked ++ [n] } : Search).keepPath (path ++ [n])).extend
          r depth n, ?_, hlife', hextend htrail (hpath htrail hs')⟩
        simp only [haccept, if_true]
        rfl
      · refine ⟨{ s' with asked := s'.asked ++ [n] }, ?_, hlife', hs'⟩
        simp only [haccept]
        rfl

/-! ## What is kept is connected -/

/-- A path through kept nodes leads from the root to a node. -/
def Joined (r : G) (root : Node) (keep : IdSet) (n : Node) : Prop :=
  root.id ∈ keep ∧ Relation.ReflTransGen (fun a b => b ∈ succs r a ∧ b.id ∈ keep) root n

theorem Joined.mono (h : Joined r root keep n) {keep' : IdSet} (hsub : ∀ i ∈ keep, i ∈ keep') :
    Joined r root keep' n := by
  refine ⟨hsub _ h.1, Relation.ReflTransGen.mono (fun a b hab => ?_) _ _ h.2⟩
  exact ⟨hab.1, hsub _ hab.2⟩

/-- A kept callee of a joined node is joined. -/
theorem Joined.call (h : Joined r root keep n) (hm : m ∈ succs r n) (hkeep : m.id ∈ keep) :
    Joined r root keep m :=
  ⟨h.1, h.2.tail ⟨hm, hkeep⟩⟩

/-- A trail whose nodes are all kept joins each of them. So does a part of it, from the root on. -/
theorem Trail.joined (h : Trail r root path n) (hkeep : ∀ m ∈ path ++ [n], m.id ∈ keep) :
    ∀ m ∈ path ++ [n], Joined r root keep m := by
  induction h with
  | start =>
      intro m hm
      rw [List.nil_append, List.mem_singleton] at hm
      subst hm
      exact ⟨hkeep m (by simp), .refl⟩
  | @call path n k hpath hk ih =>
      have hbefore := ih fun m hm => hkeep m (List.mem_append_left [k] hm)
      intro m hm
      -- The last node hangs on the one before it, which is joined already.
      rcases List.mem_append.1 hm with hm | hm
      · exact hbefore m hm
      · rw [List.mem_singleton] at hm
        subst hm
        have hn := hbefore n (List.mem_append_right path List.mem_cons_self)
        exact hn.call hk (hkeep m (by simp))

/-- Each kept number is that of a node to which a path through kept nodes leads. -/
def Connected (r : G) (root : Node) (keep : IdSet) : Prop :=
  ∀ i ∈ keep, ∃ n, n.id = i ∧ Joined r root keep n

/-- Keeping a path leaves what is kept connected, since the path comes from the root. -/
theorem Connected.keepPath (h : Connected r root keep) (htrail : Trail r root path n) :
    Connected r root (keep.insertAll ((path ++ [n]).map (·.id))) := by
  have hnew : ∀ m ∈ path ++ [n], m.id ∈ keep.insertAll ((path ++ [n]).map (·.id)) := fun m hm =>
    IdSet.mem_insertAll.2 (Or.inl (List.mem_map.2 ⟨m, hm, rfl⟩))
  intro i hi
  rcases IdSet.mem_insertAll.1 hi with hi | hi
  · rcases List.mem_map.1 hi with ⟨m, hm, rfl⟩
    exact ⟨m, rfl, htrail.joined hnew m hm⟩
  · rcases h i hi with ⟨m, hid, hm⟩
    exact ⟨m, hid, hm.mono fun j hj => IdSet.mem_insertAll.2 (Or.inr hj)⟩

/-- A walk outward keeps what is connected, and its round has been joined. -/
structure Attached (r : G) (root : Node) (b : Ball) : Prop where
  connected : Connected r root b.keep
  round : ∀ n ∈ b.round, Joined r root b.keep n

/-- Meeting a node keeps its number, also if it was met before. -/
theorem keep_meet (b : Ball) (n : Node) : (b.meet n).keep = b.keep.insert n.id := by
  simp only [Ball.meet]
  split
  · rfl
  · rfl

/-- A node of the round was there or has just been met. -/
theorem mem_round_meet {b : Ball} (hm : m ∈ (b.meet n).round) : m ∈ b.round ∨ m = n := by
  simp only [Ball.meet] at hm
  split at hm
  · exact Or.inl hm
  · rcases List.mem_append.1 hm with hm | hm
    · exact Or.inl hm
    · exact Or.inr (List.mem_singleton.1 hm)

/-- Meeting a callee of a joined node leaves the walk attached. -/
theorem Attached.meet {b : Ball} (h : Attached r root b) (hm : Joined r root b.keep m)
    (hn : n ∈ succs r m) : Attached r root (b.meet n) := by
  have hsub : ∀ i ∈ b.keep, i ∈ (b.meet n).keep := by
    intro i hi
    rw [keep_meet]
    exact IdSet.mem_insert.2 (Or.inr hi)
  -- The callee hangs on a joined node, and it is kept from now on.
  have hjoined : Joined r root (b.meet n).keep n := by
    refine (hm.mono hsub).call hn ?_
    rw [keep_meet]
    exact IdSet.mem_insert.2 (Or.inl rfl)
  constructor
  · intro i hi
    rw [keep_meet, IdSet.mem_insert] at hi
    rcases hi with rfl | hi
    · exact ⟨n, rfl, hjoined⟩
    · rcases h.connected i hi with ⟨k, hid, hk⟩
      exact ⟨k, hid, hk.mono hsub⟩
  · intro k hk
    rcases mem_round_meet hk with hk | rfl
    · exact (h.round k hk).mono hsub
    · exact hjoined

/-- Meeting callees of joined nodes leaves the walk attached. What joins them stays
    joined while others are met. -/
theorem Attached.meetAll {b : Ball} (h : Attached r root b) {ns : List Node}
    (hns : ∀ n ∈ ns, ∃ m, Joined r root b.keep m ∧ n ∈ succs r m) :
    Attached r root (ns.foldl Ball.meet b) := by
  induction ns generalizing b with
  | nil => exact h
  | cons n rest ih =>
      rcases hns n List.mem_cons_self with ⟨m, hm, hn⟩
      refine ih (h.meet hm hn) fun k hk => ?_
      rcases hns k (List.mem_cons_of_mem n hk) with ⟨m, hm, hk⟩
      refine ⟨m, hm.mono fun i hi => ?_, hk⟩
      rw [keep_meet]
      exact IdSet.mem_insert.2 (Or.inr hi)

/-- A walk outward keeps what is kept connected. The nodes of a round are joined, so
    what they call is, and this is the next round. -/
theorem Attached.spread (depth : Nat) {b : Ball} (h : Attached r root b) :
    Connected r root (spread r depth b) := by
  induction depth generalizing b with
  | zero => exact h.connected
  | succ depth ih =>
      unfold Prune.spread
      split
      · exact h.connected
      · have hstart : Attached r root { b with round := [] } :=
          ⟨h.connected, fun n hn => absurd hn List.not_mem_nil⟩
        refine ih (hstart.meetAll fun n hn => ?_)
        rcases List.mem_flatMap.1 hn with ⟨m, hm, hnm⟩
        exact ⟨m, h.round m hm, hnm⟩

/-- Extending from the end of a path leaves what is kept connected, once the path is kept. -/
theorem Connected.extend {depth : Nat} (htrail : Trail r root path n)
    (h : Connected r root (keep.insertAll ((path ++ [n]).map (·.id)))) :
    Connected r root (spread r depth (ballAt (keep.insertAll ((path ++ [n]).map (·.id))) n)) := by
  refine Attached.spread depth ⟨h, fun m hm => ?_⟩
  rw [ballAt, List.mem_singleton] at hm
  subst hm
  refine htrail.joined (fun k hk => ?_) m (by simp)
  exact IdSet.mem_insertAll.2 (Or.inl (List.mem_map.2 ⟨k, hk, rfl⟩))

/-- The traversal finds something to keep, and it is connected; it is nothing if there is no
    root. -/
theorem connected_findNodes (accept : KeepPolicy) {depth : Int} (hdepth : 0 ≤ depth)
    {life : Lifetime} (hlife : life.polls = none) :
    ∃ keep, findNodes r accept depth life = .ok keep ∧
      ∀ i ∈ keep, ∃ root n, CallGraph.fakeRoot r = some root ∧ n.id = i ∧
        Joined r root keep n := by
  unfold findNodes
  rw [if_neg (by omega)]
  cases hroot : CallGraph.fakeRoot r with
  | none => exact ⟨.empty, rfl, fun i hi => absurd hi IdSet.not_mem_empty⟩
  | some root =>
      -- The search keeps paths from the root and what lies around their ends, and both are
      -- connected.
      have hvisit : ∃ s, visit r accept depth.toNat (CallGraph.nodes r).length [] root { life } =
          .ok s ∧ s.life.polls = none ∧ Connected r root s.keep :=
        visit_keeps (fun htrail h => h.keepPath htrail) (fun htrail h => h.extend htrail) _ .start
          hlife fun i hi => absurd hi IdSet.not_mem_empty
      rcases hvisit with ⟨s, hok, _, hs⟩
      simp only [hok]
      refine ⟨s.keep, rfl, fun i hi => ?_⟩
      rcases hs i hi with ⟨n, hid, hn⟩
      exact ⟨root, n, rfl, hid, hn⟩

/-! ## What the view of it shows -/

variable {g : Graph} {hidden : Overlay}

/-- The view of what is kept is connected from its root: the root leads to exactly the
    kept nodes, through kept nodes and over edges that are not hidden, and it is kept
    itself unless nothing is. -/
structure KeepsConnected (g : Graph) (hidden : Overlay) (keep : IdSet) : Prop where
  reachable_eq : CallGraph.reachable (View.of g keep hidden)
    [CallGraph.fakeRoot (View.of g keep hidden)] = keep
  root_mem : keep = .empty ∨ Graph.rootId ∈ keep
  path : ∀ i ∈ keep, ∃ root n, CallGraph.fakeRoot g = some root ∧ n.id = i ∧
    Relation.ReflTransGen (fun a b => g.hasEdge a b ∧ hidden.hides a.id b.id = false ∧
      a.id ∈ keep ∧ b.id ∈ keep) root n

/-- What is joined by the edges of a traversed graph is joined by shown edges, if every
    edge of the traversed graph is one of the stored graph that is not hidden. -/
theorem Joined.shown (h : Joined r root keep n)
    (hedge : ∀ {a b}, b ∈ succs r a → g.hasEdge a b ∧ hidden.hides a.id b.id = false) :
    n.id ∈ keep ∧ Relation.ReflTransGen (fun a b => g.hasEdge a b ∧
      hidden.hides a.id b.id = false ∧ a.id ∈ keep ∧ b.id ∈ keep) root n := by
  rcases h with ⟨hroot, hpath⟩
  induction hpath with
  | refl => exact ⟨hroot, .refl⟩
  | @tail a b _ hab ih =>
      have hshown := hedge hab.1
      exact ⟨hab.2, ih.2.tail ⟨hshown.1, hshown.2, ih.1, hab.2⟩⟩

/-- If all edges of the traversed graph are edges of the stored one that are not hidden,
    what the traversal keeps is connected in the view. The view is taken of the stored
    graph and leaves out what is not kept and what is hidden, so a path through kept
    nodes and shown edges is a path in the view. -/
theorem keepsConnected_of_joined (hg : g.WellFormed)
    (hedge : ∀ {a b}, b ∈ succs r a → g.hasEdge a b ∧ hidden.hides a.id b.id = false)
    (hroot : ∀ {root}, CallGraph.fakeRoot r = some root → CallGraph.fakeRoot g = some root)
    (hkeep : ∀ i ∈ keep, ∃ root n, CallGraph.fakeRoot r = some root ∧ n.id = i ∧
      Joined r root keep n) : KeepsConnected g hidden keep := by
  have hview : Lawful (View.of g keep hidden) := View.lawful hg.lawful
  have hrootId : ∀ {root}, CallGraph.fakeRoot g = some root → g.contains root ∧
      root.id = Graph.rootId := by
    intro root h
    rw [hg.lawful.fakeRoot_eq, hg.lawful.node?_eq_some_iff] at h
    exact ⟨hg.lawful.contains_iff.2 h.1, h.2⟩
  have hpath : ∀ i ∈ keep, ∃ root n, CallGraph.fakeRoot g = some root ∧ n.id = i ∧
      Relation.ReflTransGen (fun a b => g.hasEdge a b ∧ hidden.hides a.id b.id = false ∧
        a.id ∈ keep ∧ b.id ∈ keep) root n := by
    intro i hi
    rcases hkeep i hi with ⟨root, n, hr, hid, hjoined⟩
    exact ⟨root, n, hroot hr, hid, (hjoined.shown hedge).2⟩
  refine ⟨IdSet.ext fun i => ?_, ?_, hpath⟩
  · rw [hview.mem_reachable]
    constructor
    · rintro ⟨n, rfl, a, _, ha, hled⟩
      have hn := (View.mem_nodes hg.lawful).1 (hview.mem_of_leadsTo ha hled)
      exact (View.contains_of.1 hn).1
    · intro hi
      rcases hkeep i hi with ⟨root, n, hr, hid, hjoined⟩
      have hin := hrootId (hroot hr)
      have hsee : (View.of g keep hidden).contains root := View.contains_of.2 ⟨hjoined.1, hin.1⟩
      refine ⟨n, hid, root, ?_, (View.mem_nodes hg.lawful).2 hsee, ?_⟩
      · change some root ∈ [(CallGraph.fakeRoot g).filter (View.of g keep hidden).contains]
        rw [hroot hr, Option.filter_some, if_pos hsee]
        exact List.mem_singleton_self _
      · -- Each edge of the path is an edge of the view.
        refine Relation.ReflTransGen.mono (fun a b hab => ?_) _ _ (hjoined.shown hedge).2
        rcases hab with ⟨hab, hshown, ha, hb⟩
        have hends := Graph.hasEdge_iff.1 hab
        have hsees : (View.of g keep hidden).contains b := View.contains_of.2 ⟨hb, hends.2.1⟩
        refine hview.mem_succs.2 ⟨(View.mem_nodes hg.lawful).2 hsees, ?_⟩
        refine View.hasEdge_iff.2 ⟨View.contains_of.2 ⟨ha, hends.1⟩, hsees, ?_, hab⟩
        exact (Overlay.hides_trim hidden a.id b.id).trans hshown
  · by_cases hempty : ∃ i, i ∈ keep
    · rcases hempty with ⟨i, hi⟩
      rcases hkeep i hi with ⟨root, n, hr, _, hjoined⟩
      rw [← (hrootId (hroot hr)).2]
      exact Or.inr hjoined.1
    · refine Or.inl (IdSet.ext fun i => ?_)
      exact iff_of_false (fun hi => hempty ⟨i, hi⟩) IdSet.not_mem_empty

/-- The traversal of a refined view goes over edges that are not hidden, so the view of what it
    keeps is connected although it is taken of the whole graph. -/
theorem keepsConnected_refined (hwf : g.WellFormed) (hidden : Overlay) (accept : KeepPolicy)
    {depth : Int} (hdepth : 0 ≤ depth) {life : Lifetime} (hlife : life.polls = none) :
    ∃ keep, findNodes (View.refined g hidden) accept depth life = .ok keep ∧
      KeepsConnected g hidden keep := by
  rcases connected_findNodes (r := View.refined g hidden) accept hdepth hlife with
    ⟨keep, hok, hkeep⟩
  refine ⟨keep, hok, keepsConnected_of_joined hwf ?_ ?_ hkeep⟩
  · intro a b hab
    have hrefined : Lawful (View.refined g hidden) := View.lawful hwf.lawful
    have hedge := View.hasEdge_iff.1 (hrefined.mem_succs.1 hab).2
    exact ⟨hedge.2.2.2, (Overlay.hides_trim hidden a.id b.id).symm.trans hedge.2.2.1⟩
  · intro root h
    exact (Option.filter_eq_some_iff.1 h).1

/-- Whatever a policy accepts and however far it extends, the pruned view is connected from
    its root, whether the traversal goes over the refined view or, if nothing is hidden,
    over the graph. -/
theorem findNodes_keepsConnected (hg : g.Obtainable) (hidden : Overlay) (accept : KeepPolicy)
    {depth : Int} (hdepth : 0 ≤ depth) {life : Lifetime} (hlife : life.polls = none) :
    (∃ keep, findNodes (View.refined g hidden) accept depth life = .ok keep ∧
        KeepsConnected g hidden keep) ∧
      ∃ keep, findNodes g accept depth life = .ok keep ∧ KeepsConnected g .empty keep := by
  have hwf := hg.wellFormed
  refine ⟨keepsConnected_refined hwf hidden accept hdepth hlife, ?_⟩
  rcases connected_findNodes (r := g) accept hdepth hlife with ⟨keep, hok, hkeep⟩
  refine ⟨keep, hok, keepsConnected_of_joined hwf ?_ (fun h => h) hkeep⟩
  intro a b hab
  exact ⟨(hwf.lawful.mem_succs.1 hab).2, rfl⟩

/-! ## A graph with two cycles, walked with and without a hidden edge -/

/-- The small graph, with its first node called by the root. -/
def rootedLetters : Graph :=
  View.letters.afterAll [.addEdge
    (some ⟨0, Graph.rootId, .fakeRoot, .everywhere, .fakeRoot⟩) (some (View.lettered 2 "A"))]

/-- B is accepted. C lies one call beyond it and is kept unless that call is hidden. -/
theorem findNodes_keepsConnected_letters :
    let accept : KeepPolicy := fun n => n.id = 3
    let hidden : Overlay := Table.empty.insert 3 (IdSet.ofList [4])
    let keep := IdSet.ofList [0, 2, 3]
    findNodes (View.refined rootedLetters hidden) accept 1 .unbounded = .ok keep ∧
      findNodes rootedLetters accept 1 .unbounded = .ok (keep.insert 4) ∧
      KeepsConnected rootedLetters hidden keep ∧
      KeepsConnected rootedLetters .empty (keep.insert 4) := by
  intro accept hidden keep
  have hg : rootedLetters.Obtainable := Graph.Obtainable.afterAll ⟨0, _, rfl⟩ _
  have hrefined : findNodes (View.refined rootedLetters hidden) accept 1 .unbounded = .ok keep := by
    decide +kernel
  have hwhole : findNodes rootedLetters accept 1 .unbounded = .ok (keep.insert 4) := by
    decide +kernel
  have hdepth : (0 : Int) ≤ 1 := by decide
  have hlife : Lifetime.unbounded.polls = none := rfl
  -- The theorem tells that something is kept, and the computation tells what.
  rcases findNodes_keepsConnected hg hidden accept hdepth hlife with ⟨⟨k, hk, hck⟩, ⟨l, hl, hcl⟩⟩
  rw [hrefined, Except.ok.injEq] at hk
  rw [hwhole, Except.ok.injEq] at hl
  subst hk hl
  exact ⟨hrefined, hwhole, hck, hcl⟩

end Prune

end CallAtlas
