import CallAtlas.Proofs.Prune.Turns

/-!
# What is Kept

Pruning is to keep the nodes that a policy accepts, what lies within some calls of them,
and the calls by which they are reached. How much of the last it keeps depends on the
order of the traversal. This module says what does not depend on it. What lies near an
accepted node is kept. Whatever is kept can be reached, and leads to something near an
accepted node without leaving what is kept. If nothing is kept beyond the accepted nodes
and the calls make no cycle, then exactly the nodes are kept that lead to accepted ones.

At any moment a node was not yet entered, is on the path, or was left. `Paced` says
what this means for the calls of a node, and nothing in it depends on the policy. A node
that was left has all its callees marked. Without cycles these were left before it, and
then nothing that happens later can make them be kept, because only the path is kept.
This is the clause of `Tidy` that fails for a call back to a node on the path.

## Main definitions

* `Prune.Reached`, `Prune.Chosen`, `Prune.Near`: What calls lead to from the root, what is
  accepted of it, and what lies within some calls of that.
* `Prune.Through`: A path of calls through kept nodes.
* `Prune.KeepsPaths`: What can be said of a set of kept nodes.
* `Prune.Paced`: The path of a traversal and the marks it leaves.
* `Prune.Anchored`: Kept nodes lead to something near an accepted node.
* `Prune.Tidy`: A node is kept with its callees.

## Theorems

* `Prune.Paced.turn`: A turn keeps the pace.
* `Prune.Anchored.keepPath`, `Prune.Anchored.extend`: Both ways of keeping leave everything
  anchored.
* `Prune.Working.turn`: A turn keeps what it owes to accepted nodes.
* `Prune.Tidy.turn`: Without cycles a turn keeps everything tidy.
* `Prune.findNodes_keepsPaths`: What the traversal keeps, of a graph and of a view.
-/

namespace CallAtlas

namespace Prune

open CallGraph (Lawful LeadsTo nodes succs)
open Relation (ReflTransGen TransGen)

variable {G : Type} [CallGraph G] {g : G} {accept : KeepPolicy} {depth : Nat} {root n m t : Node}
  {frames : List (Node × List Node)} {todo path : List Node} {marked keep : IdSet}

/-! ## The specification -/

/-- A node to which calls lead from the fake root. -/
def Reached (g : G) (n : Node) : Prop :=
  ∃ root, CallGraph.fakeRoot g = some root ∧ LeadsTo g root n

/-- A node that is reached and that the policy accepts. -/
def Chosen (g : G) (accept : KeepPolicy) (n : Node) : Prop := Reached g n ∧ accept n = true

/-- A node within some calls of a chosen one. -/
def Near (g : G) (accept : KeepPolicy) (depth : Nat) (n : Node) : Prop :=
  ∃ a, Chosen g accept a ∧ Within g depth a n

/-- A path of calls through kept nodes. -/
def Through (g : G) (keep : IdSet) : Node → Node → Prop :=
  ReflTransGen fun a b => b ∈ succs g a ∧ a.id ∈ keep ∧ b.id ∈ keep

/-- What is near is kept. What is kept is reached, and leads to something near through
    kept nodes. If only chosen nodes are near and calls make no cycle, then what is kept
    is what leads to a chosen node. -/
structure KeepsPaths (g : G) (accept : KeepPolicy) (depth : Nat) (keep : IdSet) : Prop where
  near : ∀ n, Near g accept depth n → n.id ∈ keep
  anchored : ∀ i ∈ keep, ∃ n, n.id = i ∧ Reached g n ∧
    ∃ b, Near g accept depth b ∧ Through g keep n b
  iff_of_acyclic : depth = 0 → (∀ n, Reached g n → ¬TransGen (fun a b => b ∈ succs g a) n n) →
    ∀ i, i ∈ keep ↔ ∃ n, n.id = i ∧ Reached g n ∧ ∃ a, Chosen g accept a ∧ LeadsTo g n a

theorem Through.mono {keep' : IdSet} (h : Through g keep n m) (hsub : ∀ i ∈ keep, i ∈ keep') :
    Through g keep' n m :=
  ReflTransGen.mono (fun _ _ hab => ⟨hab.1, hsub _ hab.2.1, hsub _ hab.2.2⟩) _ _ h

theorem Through.leadsTo (h : Through g keep n m) : LeadsTo g n m :=
  ReflTransGen.mono (fun _ _ hab => hab.1) _ _ h

theorem Reached.mem_nodes (hg : Lawful g) (h : Reached g n) : n ∈ nodes g := by
  rcases h with ⟨root, hroot, hpath⟩
  rw [hg.fakeRoot_eq, hg.node?_eq_some_iff] at hroot
  exact hg.mem_of_leadsTo hroot.1 hpath

theorem Reached.trans (h : Reached g n) (hpath : LeadsTo g n m) : Reached g m := by
  rcases h with ⟨root, hroot, hled⟩
  exact ⟨root, hroot, hled.trans hpath⟩

/-! ## The path and the marks -/

/-- The trail to a node is that to its caller and a call. -/
theorem Trail.pop (h : Trail g root (path ++ [n]) m) : Trail g root path n := by
  generalize hl : path ++ [n] = l at h
  cases h with
  | start => exact absurd hl (by simp)
  | call hpath _ =>
      rcases List.append_inj' hl rfl with ⟨rfl, hlast⟩
      rw [List.singleton_inj.1 hlast]
      exact hpath

/-- Each node of a trail leads to its end, along the trail. What is known of the nodes
    of the trail is known of every node on the way. -/
theorem Trail.path_to {P : Node → Prop} (h : Trail g root path n) (hP : ∀ m ∈ path ++ [n], P m) :
    ∀ m ∈ path ++ [n], ReflTransGen (fun a b => b ∈ succs g a ∧ P a ∧ P b) m n := by
  induction h with
  | start =>
      intro m hm
      rw [List.nil_append, List.mem_singleton] at hm
      subst hm
      exact .refl
  | @call path n k _ hk ih =>
      have hend : ∀ m ∈ path ++ [n], P m := fun m hm => hP m (List.mem_append_left [k] hm)
      intro m hm
      -- The call at the end of the trail is the last step of each path.
      rcases List.mem_append.1 hm with hm | hm
      · exact (ih hend m hm).tail ⟨hk, hend n (by simp), hP k (by simp)⟩
      · rw [List.mem_singleton] at hm
        subst hm
        exact .refl

theorem Trail.leadsTo (h : Trail g root path n) (hm : m ∈ path ++ [n]) : LeadsTo g m n :=
  ReflTransGen.mono (fun _ _ hab => hab.1) _ _ (h.path_to (fun _ _ => trivial) m hm)

/-- The path of a traversal and the marks it leaves. The path is a trail of marked
    nodes, what is marked can be reached, and its callees are marked or still to be
    looked at. -/
structure Paced (g : G) (root : Node) (frames : List (Node × List Node)) (marked : IdSet) :
    Prop where
  standing : Standing g (pathOf frames) marked
  trail : ∀ {n todo rest}, frames = (n, todo) :: rest → Trail g root (pathOf rest) n
  todo_succs : ∀ {n todo}, (n, todo) ∈ frames → ∀ t ∈ todo, t ∈ succs g n
  reached : ∀ i ∈ marked, ∃ n ∈ nodes g, n.id = i ∧ LeadsTo g root n
  closed : ∀ n ∈ nodes g, n.id ∈ marked → ∀ t ∈ succs g n,
    t.id ∈ marked ∨ ∃ todo, (n, todo) ∈ frames ∧ t ∈ todo
  started : root.id ∈ marked

theorem Paced.leadsTo (hg : Lawful g) (h : Paced g root frames marked) (hn : n ∈ nodes g)
    (hmarked : n.id ∈ marked) : LeadsTo g root n := by
  rcases h.reached n.id hmarked with ⟨k, hk, hid, hled⟩
  rw [← hg.eq_of_id hk hn hid]
  exact hled

/-- A node that is entered goes on top of the path and is marked. Its callees have still
    to be looked at, while its caller has looked at it. -/
theorem Paced.enter (hg : Lawful g) (h : Paced g root ((n, t :: todo) :: frames) marked)
    (hnew : t.id ∉ marked) :
    Paced g root ((t, succs g t) :: (n, todo) :: frames) (marked.insert t.id) := by
  have ht : t ∈ succs g n := h.todo_succs List.mem_cons_self t List.mem_cons_self
  have hin : t ∈ nodes g := (hg.mem_succs.1 ht).1
  have hstand : Standing g (pathOf frames ++ [n]) marked := by
    have hs := h.standing
    rw [pathOf_cons] at hs
    exact hs
  have hn := hstand.mem n (by simp)
  refine ⟨?_, ?_, ?_, ?_, ?_, IdSet.mem_insert.2 (Or.inr h.started)⟩
  · rw [pathOf_cons, pathOf_cons]
    exact hstand.enter hin hnew
  · intro k todo' rest heq
    simp only [List.cons.injEq, Prod.mk.injEq] at heq
    rcases heq with ⟨⟨rfl, rfl⟩, rfl⟩
    rw [pathOf_cons]
    exact (h.trail rfl).call ht
  · intro k todo' hk j hj
    rcases List.mem_cons.1 hk with heq | hk
    · rcases Prod.mk.inj heq with ⟨rfl, rfl⟩
      exact hj
    · rcases List.mem_cons.1 hk with heq | hk
      · rcases Prod.mk.inj heq with ⟨rfl, rfl⟩
        exact h.todo_succs List.mem_cons_self j (List.mem_cons_of_mem t hj)
      · exact h.todo_succs (List.mem_cons_of_mem _ hk) j hj
  · intro i hi
    rcases IdSet.mem_insert.1 hi with rfl | hi
    · exact ⟨t, hin, rfl, (h.leadsTo hg hn.1 hn.2).tail ht⟩
    · exact h.reached i hi
  · intro k hk hkmarked j hj
    rcases IdSet.mem_insert.1 hkmarked with hid | hkmarked
    · -- The node that was entered has all its callees ahead.
      rw [hg.eq_of_id hk hin hid] at hj ⊢
      exact Or.inr ⟨_, List.mem_cons_self, hj⟩
    · rcases h.closed k hk hkmarked j hj with hmarked | ⟨todo', hmem, hj⟩
      · exact Or.inl (IdSet.mem_insert.2 (Or.inr hmarked))
      · rcases List.mem_cons.1 hmem with heq | hmem
        · rcases Prod.mk.inj heq with ⟨rfl, rfl⟩
          rcases List.mem_cons.1 hj with rfl | hj
          · exact Or.inl (IdSet.mem_insert.2 (Or.inl rfl))
          · exact Or.inr ⟨todo, List.mem_cons_of_mem _ List.mem_cons_self, hj⟩
        · exact Or.inr ⟨todo', List.mem_cons_of_mem _ (List.mem_cons_of_mem _ hmem), hj⟩

/-- A callee that was marked before is done with. -/
theorem Paced.look (h : Paced g root ((n, t :: todo) :: frames) marked) (hmarked : t.id ∈ marked) :
    Paced g root ((n, todo) :: frames) marked := by
  refine ⟨?_, ?_, ?_, h.reached, ?_, h.started⟩
  · have hs := h.standing
    rw [pathOf_cons] at hs ⊢
    exact hs
  · intro k todo' rest heq
    simp only [List.cons.injEq, Prod.mk.injEq] at heq
    rcases heq with ⟨⟨rfl, rfl⟩, rfl⟩
    exact h.trail rfl
  · -- The frame has one callee less to look at.
    intro k todo' hk j hj
    rcases List.mem_cons.1 hk with heq | hk
    · rcases Prod.mk.inj heq with ⟨rfl, rfl⟩
      exact h.todo_succs List.mem_cons_self j (List.mem_cons_of_mem t hj)
    · exact h.todo_succs (List.mem_cons_of_mem _ hk) j hj
  · intro k hk hkmarked j hj
    rcases h.closed k hk hkmarked j hj with hj | ⟨todo', hmem, hj⟩
    · exact Or.inl hj
    · rcases List.mem_cons.1 hmem with heq | hmem
      · rcases Prod.mk.inj heq with ⟨rfl, rfl⟩
        -- The callee that is crossed off was marked, so nothing is lost.
        rcases List.mem_cons.1 hj with rfl | hj
        · exact Or.inl hmarked
        · exact Or.inr ⟨todo, List.mem_cons_self, hj⟩
      · exact Or.inr ⟨todo', List.mem_cons_of_mem _ hmem, hj⟩

/-- A node is left when all its callees are marked. -/
theorem Paced.leave (h : Paced g root ((n, []) :: frames) marked) : Paced g root frames marked := by
  have hs := h.standing
  rw [pathOf_cons] at hs
  refine ⟨⟨(List.nodup_append.1 hs.nodup).1, fun k hk => hs.mem k (List.mem_append_left [n] hk)⟩,
    ?_, fun hk => h.todo_succs (List.mem_cons_of_mem _ hk), h.reached, ?_, h.started⟩
  · rintro k todo rest rfl
    have htrail := h.trail rfl
    rw [pathOf_cons] at htrail
    exact htrail.pop
  · intro k hk hkmarked j hj
    rcases h.closed k hk hkmarked j hj with hj | ⟨todo', hmem, hj⟩
    · exact Or.inl hj
    · rcases List.mem_cons.1 hmem with heq | hmem
      · -- The frame that goes has no callees left, so none of them is unmarked.
        rcases Prod.mk.inj heq with ⟨rfl, rfl⟩
        exact absurd hj List.not_mem_nil
      · exact Or.inr ⟨todo', hmem, hj⟩

/-- A turn keeps the pace. What it does to the kept numbers is of no account for the
    path and the marks. -/
theorem Paced.turn (hg : Lawful g) {w w' : Walk} (h : Paced g root w.frames w.search.marked)
    (hturn : Turn g accept depth w w') : Paced g root w'.frames w'.search.marked := by
  cases hturn with
  | enter hnew _ => exact h.enter hg hnew
  | join hmarked _ => exact h.look hmarked
  | pass hmarked _ => exact h.look hmarked
  | keep _ => exact h.leave
  | leave _ => exact h.leave

/-- The traversal begins with the root on its path. -/
theorem paced_start (hg : Lawful g) (hroot : root ∈ nodes g) :
    Paced g root [(root, succs g root)] (IdSet.empty.insert root.id) := by
  -- The root is the only node that is marked.
  have honly : ∀ {i}, i ∈ IdSet.empty.insert root.id → i = root.id := fun hi =>
    (IdSet.mem_insert.1 hi).resolve_right IdSet.not_mem_empty
  have hempty : Standing g [] IdSet.empty :=
    ⟨List.nodup_nil, fun n hn => absurd hn List.not_mem_nil⟩
  refine ⟨?_, ?_, ?_, ?_, ?_, IdSet.mem_insert.2 (Or.inl rfl)⟩
  · exact hempty.enter hroot IdSet.not_mem_empty
  · intro n todo rest heq
    simp only [List.cons.injEq, Prod.mk.injEq] at heq
    rcases heq with ⟨⟨rfl, rfl⟩, rfl⟩
    exact .start
  · intro n todo hn t ht
    rw [List.mem_singleton, Prod.mk.injEq] at hn
    rcases hn with ⟨rfl, rfl⟩
    exact ht
  · intro i hi
    exact ⟨root, hroot, (honly hi).symm, .refl⟩
  · intro n hn hmarked t ht
    rw [hg.eq_of_id hn hroot (honly hmarked)] at ht ⊢
    exact Or.inr ⟨_, List.mem_singleton_self _, ht⟩

/-- When the path is empty, what is marked is what can be reached. Nothing is left to be
    looked at, so the marks are closed under calls. -/
theorem Paced.marked_of_leadsTo (hg : Lawful g) (h : Paced g root [] marked)
    (hroot : root ∈ nodes g) (hled : LeadsTo g root n) : n.id ∈ marked := by
  induction hled with
  | refl => exact h.started
  | @tail a b hled hb ih =>
      rcases h.closed a (hg.mem_of_leadsTo hroot hled) ih b hb with hmarked | ⟨_, hmem, _⟩
      · exact hmarked
      · exact absurd hmem List.not_mem_nil

/-! ## What is owed to accepted nodes -/

/-- Kept nodes are reached, and lead to something near through kept nodes. -/
def Anchored (g : G) (accept : KeepPolicy) (depth : Nat) (keep : IdSet) : Prop :=
  ∀ i ∈ keep, ∃ n, n.id = i ∧ Reached g n ∧ ∃ b, Near g accept depth b ∧ Through g keep n b

/-- Keeping a path leaves everything anchored, if its end then leads to something near. -/
theorem Anchored.keepPath (h : Anchored g accept depth keep) (htrail : Trail g root path n)
    (hreached : ∀ m ∈ path ++ [n], Reached g m)
    (hend : ∃ b, Near g accept depth b ∧
      Through g (keep.insertAll ((path ++ [n]).map (·.id))) n b) :
    Anchored g accept depth (keep.insertAll ((path ++ [n]).map (·.id))) := by
  have hnew : ∀ m ∈ path ++ [n], m.id ∈ keep.insertAll ((path ++ [n]).map (·.id)) := fun m hm =>
    IdSet.mem_insertAll.2 (Or.inl (List.mem_map.2 ⟨m, hm, rfl⟩))
  rcases hend with ⟨b, hnear, hb⟩
  intro i hi
  rcases IdSet.mem_insertAll.1 hi with hi | hi
  · rcases List.mem_map.1 hi with ⟨m, hm, rfl⟩
    exact ⟨m, rfl, hreached m hm, b, hnear, (htrail.path_to hnew m hm).trans hb⟩
  · rcases h i hi with ⟨m, hid, hm, b', hnear', hb'⟩
    exact ⟨m, hid, hm, b', hnear', hb'.mono fun j hj => IdSet.mem_insertAll.2 (Or.inr hj)⟩

/-- Extending from a chosen node leaves everything anchored, since it keeps what is near. -/
theorem Anchored.extend (hg : Lawful g) (h : Anchored g accept depth keep)
    (hn : Chosen g accept n) (hkeep : n.id ∈ keep) :
    Anchored g accept depth (spread g depth (ballAt keep n)) := by
  intro i hi
  rcases (mem_spread_ballAt hg (hn.1.mem_nodes hg) hkeep).1 hi with hi | ⟨m, hwithin, rfl⟩
  · rcases h i hi with ⟨m, hid, hm, b, hnear, hb⟩
    exact ⟨m, hid, hm, b, hnear, hb.mono fun j hj => mem_spread_of_mem hj⟩
  · exact ⟨m, rfl, hn.1.trans hwithin.leadsTo, m, ⟨n, hn, hwithin⟩, .refl⟩

/-- A traversal at work: it is paced, what is near an accepted node that was left is
    kept, and what is kept is anchored. -/
structure Working (g : G) (accept : KeepPolicy) (depth : Nat) (root : Node) (w : Walk) : Prop
    extends Paced g root w.frames w.search.marked where
  rooted : CallGraph.fakeRoot g = some root
  settled : ∀ n ∈ nodes g, n.id ∈ w.search.marked → n ∈ pathOf w.frames ∨
    (accept n = true → ∀ m, Within g depth n m → m.id ∈ w.search.keep)
  anchored : Anchored g accept depth w.search.keep

theorem Working.reached_of_path (hg : Lawful g) {w : Walk} (h : Working g accept depth root w)
    (hn : n ∈ pathOf w.frames) : Reached g n := by
  rcases h.standing.mem n hn with ⟨hin, hmarked⟩
  exact ⟨root, h.rooted, h.leadsTo hg hin hmarked⟩

/-- A turn keeps what the traversal owes to accepted nodes. The debt falls due when a
    node is left, and it is paid then: the path to it is kept, and what lies around it. -/
theorem Working.turn (hg : Lawful g) {w w' : Walk} (h : Working g accept depth root w)
    (hturn : Turn g accept depth w w') : Working g accept depth root w' := by
  have hpaced := h.toPaced.turn hg hturn
  refine ⟨hpaced, h.rooted, ?_, ?_⟩
  · -- A node that is neither on the path nor left before is left now.
    cases hturn with
    | @enter n t todo frames s life _ _ =>
        intro k hk hmarked
        rw [pathOf_cons, List.mem_append, List.mem_singleton]
        rcases IdSet.mem_insert.1 hmarked with hid | hmarked
        · have hin := (hpaced.standing.mem t (by simp)).1
          exact Or.inl (Or.inr (hg.eq_of_id hk hin hid))
        · refine (h.settled k hk hmarked).imp_left fun hpath => Or.inl ?_
          rw [pathOf_cons] at hpath ⊢
          exact hpath
    | @join n t todo frames s _ _ =>
        intro k hk hmarked
        refine (h.settled k hk hmarked).imp (fun hpath => ?_) fun hball haccept m hm => ?_
        · rw [pathOf_cons] at hpath ⊢
          exact hpath
        · exact IdSet.mem_insertAll.2 (Or.inr (hball haccept m hm))
    | @pass n t todo frames s _ _ =>
        intro k hk hmarked
        refine (h.settled k hk hmarked).imp_left fun hpath => ?_
        rw [pathOf_cons] at hpath ⊢
        exact hpath
    | @keep n frames s haccept =>
        intro k hk hmarked
        have hkept : n.id ∈ s.keep.insertAll ((pathOf frames ++ [n]).map (·.id)) :=
          IdSet.mem_insertAll.2 (Or.inl (List.mem_map.2 ⟨n, by simp, rfl⟩))
        have hin := (h.standing.mem n (by simp)).1
        rcases h.settled k hk hmarked with hpath | hball
        · rw [pathOf_cons, List.mem_append, List.mem_singleton] at hpath
          rcases hpath with hpath | rfl
          · exact Or.inl hpath
          · exact Or.inr fun _ m hm => (mem_spread_ballAt hg hin hkept).2 (Or.inr ⟨m, hm, rfl⟩)
        · refine Or.inr fun haccept m hm => mem_spread_of_mem ?_
          exact IdSet.mem_insertAll.2 (Or.inr (hball haccept m hm))
    | @leave n frames s hdecline =>
        intro k hk hmarked
        rcases h.settled k hk hmarked with hpath | hball
        · rw [pathOf_cons, List.mem_append, List.mem_singleton] at hpath
          rcases hpath with hpath | rfl
          · exact Or.inl hpath
          · exact Or.inr fun haccept => absurd (hdecline.symm.trans haccept) (by simp)
        · exact Or.inr hball
  · cases hturn with
    | enter _ _ => exact h.anchored
    | @join n t todo frames s hmarked hkept =>
        have hpath : ∀ m ∈ pathOf frames ++ [n], Reached g m := fun m hm =>
          h.reached_of_path hg (by rw [pathOf_cons]; exact hm)
        have ht := h.todo_succs List.mem_cons_self t List.mem_cons_self
        refine h.anchored.keepPath (h.trail rfl) hpath ?_
        -- The end of the path calls a kept node, which leads on.
        rcases h.anchored t.id hkept with ⟨t', hid, hreached, b, hnear, hb⟩
        rw [hg.eq_of_id (hreached.mem_nodes hg) (hg.mem_succs.1 ht).1 hid] at hb
        refine ⟨b, hnear, .head ⟨ht, ?_, ?_⟩ (hb.mono fun j hj => ?_)⟩
        · exact IdSet.mem_insertAll.2 (Or.inl (List.mem_map.2 ⟨n, by simp, rfl⟩))
        · exact IdSet.mem_insertAll.2 (Or.inr hkept)
        · exact IdSet.mem_insertAll.2 (Or.inr hj)
    | pass _ _ => exact h.anchored
    | @keep n frames s haccept =>
        have hpath : ∀ m ∈ pathOf frames ++ [n], Reached g m := fun m hm =>
          h.reached_of_path hg (by rw [pathOf_cons]; exact hm)
        have hchosen : Chosen g accept n := ⟨hpath n (by simp), haccept⟩
        have hkept := h.anchored.keepPath (h.trail rfl) hpath
          ⟨n, ⟨n, hchosen, .here depth n⟩, .refl⟩
        refine hkept.extend hg hchosen ?_
        exact IdSet.mem_insertAll.2 (Or.inl (List.mem_map.2 ⟨n, by simp, rfl⟩))
    | leave _ => exact h.anchored

theorem working_turns (hg : Lawful g) {w w' : Walk} (h : Working g accept depth root w)
    (hturns : ReflTransGen (Turn g accept depth) w w') : Working g accept depth root w' := by
  induction hturns with
  | refl => exact h
  | tail _ hturn ih => exact ih.turn hg hturn

/-- The traversal is at work when it begins, and owes nothing. -/
theorem working_start (hg : Lawful g) (hroot : CallGraph.fakeRoot g = some root)
    (life : Lifetime) : Working g accept depth root (.start g root life) := by
  have hin : root ∈ nodes g := by
    rw [hg.fakeRoot_eq, hg.node?_eq_some_iff] at hroot
    exact hroot.1
  refine ⟨paced_start hg hin, hroot, ?_, fun i hi => absurd hi IdSet.not_mem_empty⟩
  intro n hn hmarked
  have hid := (IdSet.mem_insert.1 hmarked).resolve_right IdSet.not_mem_empty
  rw [hg.eq_of_id hn hin hid]
  exact Or.inl (by simp [Walk.start])

/-! ## Calls without cycles -/

/-- A node is kept if one of its callees is, unless it has still to look at that callee.
    What is kept was marked, and the callees of a node that was left were left. -/
structure Tidy (g : G) (w : Walk) : Prop where
  keep_marked : ∀ i ∈ w.search.keep, i ∈ w.search.marked
  left : ∀ n ∈ nodes g, n.id ∈ w.search.marked → n ∉ pathOf w.frames →
    ∀ t ∈ succs g n, t ∉ pathOf w.frames
  follows : ∀ n ∈ nodes g, n.id ∈ w.search.marked → ∀ t ∈ succs g n, t.id ∈ w.search.keep →
    n.id ∈ w.search.keep ∨ ∃ todo, (n, todo) ∈ w.frames ∧ t ∈ todo

/-- Keeping the path of a walk leaves it tidy. A caller of a node that is kept with the
    path is either on the path, and is kept with it, or was left. But the callees of a node
    that was left are not on the path. -/
theorem Tidy.keepPath (hg : Lawful g) {s : Search} (h : Tidy g ⟨frames, s⟩)
    (hstand : Standing g (pathOf frames) s.marked) :
    Tidy g ⟨frames, s.keepPath (pathOf frames)⟩ := by
  have hnew : ∀ {i}, i ∈ (s.keepPath (pathOf frames)).keep ↔
      (∃ k ∈ pathOf frames, k.id = i) ∨ i ∈ s.keep := by
    intro i
    rw [Search.keepPath, IdSet.mem_insertAll, List.mem_map]
  refine ⟨?_, h.left, ?_⟩
  · intro i hi
    rcases hnew.1 hi with ⟨k, hk, rfl⟩ | hi
    · exact (hstand.mem k hk).2
    · exact h.keep_marked i hi
  · intro n hn hmarked t ht hkept
    rcases hnew.1 hkept with ⟨k, hk, hid⟩ | hkept
    · -- A callee that is kept with the path is on it, so the node was not left.
      have heq : k = t := hg.eq_of_id (hstand.mem k hk).1 (hg.mem_succs.1 ht).1 hid
      rw [heq] at hk
      by_cases hpath : n ∈ pathOf frames
      · exact Or.inl (hnew.2 (Or.inl ⟨n, hpath, rfl⟩))
      · exact absurd hk (h.left n hn hmarked hpath t ht)
    · exact (h.follows n hn hmarked t ht hkept).imp_left fun hn => hnew.2 (Or.inr hn)

/-- A node that looked at a callee is still tidy, if it is kept with the callee. -/
theorem Tidy.look {s : Search} (h : Tidy g ⟨(n, t :: todo) :: frames, s⟩)
    (hkept : t.id ∈ s.keep → n.id ∈ s.keep) : Tidy g ⟨(n, todo) :: frames, s⟩ := by
  refine ⟨h.keep_marked, ?_, ?_⟩
  · intro k hk hmarked hnot j hj
    have hleft := h.left k hk hmarked
    simp only [pathOf_cons] at hleft hnot ⊢
    exact hleft hnot j hj
  · intro k hk hmarked j hj hjkept
    rcases h.follows k hk hmarked j hj hjkept with hk | ⟨todo', hmem, hj⟩
    · exact Or.inl hk
    · rcases List.mem_cons.1 hmem with heq | hmem
      · rcases Prod.mk.inj heq with ⟨rfl, rfl⟩
        -- The callee that is crossed off is accounted for by the condition.
        rcases List.mem_cons.1 hj with rfl | hj
        · exact Or.inl (hkept hjkept)
        · exact Or.inr ⟨todo, List.mem_cons_self, hj⟩
      · exact Or.inr ⟨todo', List.mem_cons_of_mem _ hmem, hj⟩

/-- A callee that is entered was not kept, since it was not marked. It is not a callee of
    a node that was left either: those callees were marked when the node was left. -/
theorem Tidy.enter (hg : Lawful g) {s : Search} {life : Lifetime}
    (h : Tidy g ⟨(n, t :: todo) :: frames, s⟩) (ht : t ∈ nodes g) (hnew : t.id ∉ s.marked)
    (hpaced : Paced g root ((n, t :: todo) :: frames) s.marked) :
    Tidy g ⟨(t, succs g t) :: (n, todo) :: frames, s.mark t life⟩ := by
  have hlook := h.look fun hkept => absurd (h.keep_marked _ hkept) hnew
  have hcases : ∀ {k}, k ∈ nodes g → k.id ∈ (s.mark t life).marked → k = t ∨ k.id ∈ s.marked :=
    fun hk hmarked => (IdSet.mem_insert.1 hmarked).imp_left (hg.eq_of_id hk ht)
  refine ⟨fun i hi => IdSet.mem_insert.2 (Or.inr (h.keep_marked i hi)), ?_, ?_⟩
  · intro k hk hmarked hnot j hj
    rw [pathOf_cons, List.mem_append, List.mem_singleton, not_or] at hnot ⊢
    rcases hcases hk hmarked with rfl | hbefore
    · exact absurd rfl hnot.2
    · refine ⟨hlook.left k hk hbefore hnot.1 j hj, ?_⟩
      -- The callees of a node that was left were marked before.
      rintro rfl
      rcases hpaced.closed k hk hbefore j hj with hjmarked | ⟨todo', hmem, _⟩
      · exact hnew hjmarked
      · refine hnot.1 ?_
        have hpath := mem_pathOf.2 ⟨todo', hmem⟩
        rw [pathOf_cons] at hpath ⊢
        exact hpath
  · intro k hk hmarked j hj hkept
    rcases hcases hk hmarked with rfl | hbefore
    · exact Or.inr ⟨_, List.mem_cons_self, hj⟩
    · refine (hlook.follows k hk hbefore j hj hkept).imp_right ?_
      rintro ⟨todo', hmem, hj⟩
      exact ⟨todo', List.mem_cons_of_mem _ hmem, hj⟩

/-- A node that is left leads to none that is still on the path, if calls make no cycle.
    The nodes of the path lead to it, so a callee on the path would close a cycle. This is
    the only step that needs the calls to be acyclic. -/
theorem Tidy.leave {s s' : Search} (h : Tidy g ⟨(n, []) :: frames, s⟩)
    (hpaced : Paced g root ((n, []) :: frames) s.marked)
    (hacyclic : ¬TransGen (fun a b => b ∈ succs g a) n n) (hmarks : s'.marked = s.marked)
    (hkeeps : s'.keep = s.keep) : Tidy g ⟨frames, s'⟩ := by
  refine ⟨?_, ?_, ?_⟩
  · rw [hkeeps, hmarks]
    exact h.keep_marked
  · intro k hk hmarked hnot j hj hpath
    rw [hmarks] at hmarked
    by_cases hkn : k = n
    · -- The callee is on the path, so it leads to the node that calls it.
      subst hkn
      have hback : LeadsTo g j k := (hpaced.trail rfl).leadsTo (List.mem_append_left [k] hpath)
      exact hacyclic (.head' hj hback)
    · have hleft := h.left k hk hmarked
      simp only [pathOf_cons, List.mem_append, List.mem_singleton, not_or] at hleft
      exact (hleft ⟨hnot, hkn⟩ j hj).1 hpath
  · intro k hk hmarked j hj hkept
    rw [hmarks] at hmarked
    rw [hkeeps] at hkept ⊢
    rcases h.follows k hk hmarked j hj hkept with hk | ⟨todo', hmem, hj⟩
    · exact Or.inl hk
    · rcases List.mem_cons.1 hmem with heq | hmem
      · rcases Prod.mk.inj heq with ⟨rfl, rfl⟩
        exact absurd hj List.not_mem_nil
      · exact Or.inr ⟨todo', hmem, hj⟩

/-- Without cycles and without an extension a turn keeps everything tidy. Whoever meets a
    kept callee keeps its own path, and whoever passes one by has seen that it is not kept.
    An extension keeps nodes that need not be on a path, so the depth is zero here. -/
theorem Tidy.turn (hg : Lawful g) (hacyclic : ∀ n, Reached g n →
      ¬TransGen (fun a b => b ∈ succs g a) n n) {w w' : Walk} (hw : Working g accept 0 root w)
    (h : Tidy g w) (hturn : Turn g accept 0 w w') : Tidy g w' := by
  have hpaced := hw.toPaced
  cases hturn with
  | @enter n t todo frames s life hnew _ =>
      have ht := hpaced.todo_succs List.mem_cons_self t List.mem_cons_self
      exact h.enter hg (hg.mem_succs.1 ht).1 hnew hpaced
  | @join n t todo frames s hmarked hkept =>
      have hpath := h.keepPath hg hpaced.standing
      rw [pathOf_cons] at hpath
      refine hpath.look fun _ => ?_
      exact IdSet.mem_insertAll.2 (Or.inl (List.mem_map.2 ⟨n, by simp, rfl⟩))
  | pass hmarked hnot => exact h.look fun hkept => absurd hkept hnot
  -- With no rounds to go, the extension of an accepted node adds nothing to its path.
  | @keep n frames s _ =>
      have hpath := h.keepPath hg hpaced.standing
      rw [pathOf_cons] at hpath
      exact hpath.leave hpaced (hacyclic n (hw.reached_of_path hg (by simp))) rfl rfl
  | @leave n frames s _ =>
      exact h.leave hpaced (hacyclic n (hw.reached_of_path hg (by simp))) rfl rfl

/-- Without cycles everything stays tidy through all turns. -/
theorem tidy_turns (hg : Lawful g) (hacyclic : ∀ n, Reached g n →
      ¬TransGen (fun a b => b ∈ succs g a) n n) {w w' : Walk} (hw : Working g accept 0 root w)
    (h : Tidy g w) (hturns : ReflTransGen (Turn g accept 0) w w') : Tidy g w' := by
  induction hturns with
  | refl => exact h
  | tail hturns hturn ih => exact ih.turn hg hacyclic (working_turns hg hw hturns) hturn

/-- Everything is tidy when the traversal begins. -/
theorem tidy_start (hg : Lawful g) (hin : root ∈ nodes g) (life : Lifetime) :
    Tidy g (.start g root life) := by
  refine ⟨fun i hi => absurd hi IdSet.not_mem_empty, ?_,
    fun n _ _ t _ hkept => absurd hkept IdSet.not_mem_empty⟩
  intro n hn hmarked hnot
  have hid := (IdSet.mem_insert.1 hmarked).resolve_right IdSet.not_mem_empty
  exact absurd (by simp [Walk.start, hg.eq_of_id hn hin hid]) hnot

/-! ## The whole traversal -/

/-- What leads to a chosen node is kept when the walk is over and tidy. The induction
    goes backwards along the path. Nothing is left to be looked at, so each caller of a
    kept node is kept. -/
theorem Tidy.mem_of_leadsTo (hg : Lawful g) {s : Search} (h : Tidy g ⟨[], s⟩)
    (hw : Working g accept 0 root ⟨[], s⟩) {a : Node} (hn : Reached g n)
    (ha : a.id ∈ s.keep) (hled : LeadsTo g n a) : n.id ∈ s.keep := by
  have hmarked : ∀ {k}, Reached g k → k.id ∈ s.marked := by
    rintro k ⟨root', hroot, hpath⟩
    obtain rfl : root = root' := Option.some.inj (hw.rooted.symm.trans hroot)
    exact hw.toPaced.marked_of_leadsTo hg (Reached.mem_nodes hg ⟨root, hroot, .refl⟩) hpath
  induction hled using ReflTransGen.head_induction_on with
  | refl => exact ha
  | @head n k hk _ ih =>
      have hkept := ih (hn.trans (.single hk))
      rcases h.follows n (hn.mem_nodes hg) (hmarked hn) k hk hkept with hn | ⟨_, hmem, _⟩
      · exact hn
      · exact absurd hmem List.not_mem_nil

/-- Whatever a lawful graph is, the traversal keeps what it should. All three parts are
    read off the invariants at the moment at which the path is empty. -/
theorem keepsPaths_findNodes (hg : Lawful g) (accept : KeepPolicy) {depth : Int}
    (hdepth : 0 ≤ depth) {life : Lifetime} (hlife : life.polls = none) :
    ∃ keep, findNodes g accept depth life = .ok keep ∧
      KeepsPaths g accept depth.toNat keep := by
  rcases connected_findNodes (r := g) accept hdepth hlife with ⟨keep, hok, _⟩
  refine ⟨keep, hok, ?_⟩
  cases hroot : CallGraph.fakeRoot g with
  | none =>
      -- Without a root nothing is reached and nothing is kept.
      have hnone : ∀ {n}, ¬Reached g n := by
        rintro n ⟨root, h, _⟩
        exact absurd (hroot.symm.trans h) (by simp)
      obtain rfl : IdSet.empty = keep := by
        rw [findNodes, if_neg (by omega), hroot] at hok
        exact Except.ok.inj hok
      refine ⟨?_, fun i hi => absurd hi IdSet.not_mem_empty, fun _ _ i => ?_⟩
      · rintro n ⟨a, ha, _⟩
        exact absurd ha.1 hnone
      · refine iff_of_false IdSet.not_mem_empty ?_
        rintro ⟨n, _, hn, _⟩
        exact hnone hn
  | some root =>
      rcases turns_findNodes hg hroot hok with ⟨life', s, hturns, rfl⟩
      have hw := working_turns hg (working_start hg hroot life') hturns
      have hin : root ∈ nodes g := Reached.mem_nodes hg ⟨root, hroot, .refl⟩
      have hnear : ∀ n, Near g accept depth.toNat n → n.id ∈ s.keep := by
        rintro n ⟨a, ⟨ha, haccept⟩, hwithin⟩
        rcases ha with ⟨root', hroot', hpath⟩
        obtain rfl : root = root' := Option.some.inj (hroot.symm.trans hroot')
        have hmarked := hw.toPaced.marked_of_leadsTo hg hin hpath
        rcases hw.settled a (hg.mem_of_leadsTo hin hpath) hmarked with hframe | hball
        · exact absurd hframe List.not_mem_nil
        · exact hball haccept n hwithin
      refine ⟨hnear, hw.anchored, fun hzero hacyclic i => ⟨fun hi => ?_, ?_⟩⟩
      · rcases hw.anchored i hi with ⟨n, hid, hn, b, ⟨a, ha, hwithin⟩, hb⟩
        rw [hzero] at hwithin
        cases hwithin
        exact ⟨n, hid, hn, b, ha, hb.leadsTo⟩
      · rintro ⟨n, rfl, hn, a, ha, hled⟩
        rw [hzero] at hturns hw hnear
        have htidy := tidy_turns hg hacyclic (working_start hg hroot life')
          (tidy_start hg hin life') hturns
        exact htidy.mem_of_leadsTo hg hw hn (hnear a ⟨a, ha, .here 0 a⟩) hled

/-- Whatever a policy accepts and however far it extends, what is near an accepted node is
    kept, and what is kept leads there through kept nodes; exactly that if calls make no
    cycle. The traversal may go over a graph or over any view of it. -/
theorem findNodes_keepsPaths {g : Graph} (hg : g.Obtainable) (filter : Filter)
    (accept : KeepPolicy) {depth : Int} (hdepth : 0 ≤ depth) {life : Lifetime}
    (hlife : life.polls = none) :
    (∃ keep, findNodes g accept depth life = .ok keep ∧
        KeepsPaths g accept depth.toNat keep) ∧
      ∃ keep, findNodes (View.mk g filter) accept depth life = .ok keep ∧
        KeepsPaths (View.mk g filter) accept depth.toNat keep := by
  have hlawful : Lawful g := hg.wellFormed.lawful
  have hview : Lawful (View.mk g filter) := View.lawful hlawful
  exact ⟨keepsPaths_findNodes hlawful accept hdepth hlife,
    keepsPaths_findNodes hview accept hdepth hlife⟩

/-- Calls that go to higher numbers make no cycle. -/
theorem acyclic_of_ascending (hg : Lawful g) (hup : ∀ a ∈ nodes g, ∀ b ∈ succs g a, a.id < b.id)
    (n : Node) : ¬TransGen (fun a b => b ∈ succs g a) n n := by
  have hlt : ∀ {a b}, TransGen (fun a b => b ∈ succs g a) a b → a.id < b.id := by
    intro a b hab
    induction hab with
    | single hb => exact hup _ (hg.edge_left (hg.mem_succs.1 hb).2) _ hb
    | tail _ hc ih => exact ih.trans (hup _ (hg.edge_left (hg.mem_succs.1 hc).2) _ hc)
  exact fun h => lt_irrefl _ (hlt h)

/-- A is accepted. In the graph B calls it back and is not kept. In the view without the two
    calls back to A, what is kept is what leads to A. -/
theorem findNodes_keepsPaths_letters :
    let accept : KeepPolicy := fun n => n.id = 2
    let back : Overlay := (Table.empty.insert 2 (IdSet.ofList [2])).insert 3 (IdSet.ofList [2])
    let filter : Filter := { keep := IdSet.ofList [0, 2, 3, 4], hidden := back }
    let keep := IdSet.ofList [0, 2]
    (findNodes rootedLetters accept 0 .unbounded = .ok keep ∧
      KeepsPaths rootedLetters accept 0 keep ∧
      View.lettered 2 "A" ∈ succs rootedLetters (View.lettered 3 "B")) ∧
    findNodes (View.mk rootedLetters filter) accept 0 .unbounded = .ok keep ∧
      ∀ i, i ∈ keep ↔ ∃ n, n.id = i ∧ Reached (View.mk rootedLetters filter) n ∧
        ∃ a, Chosen (View.mk rootedLetters filter) accept a ∧
          LeadsTo (View.mk rootedLetters filter) n a := by
  intro accept back filter keep
  have hg : rootedLetters.Obtainable := Graph.Obtainable.afterAll ⟨0, _, rfl⟩ _
  have hwhole : findNodes rootedLetters accept 0 .unbounded = .ok keep := by decide +kernel
  have hview : findNodes (View.mk rootedLetters filter) accept 0 .unbounded = .ok keep := by
    decide +kernel
  have hdepth : (0 : Int) ≤ 0 := le_rfl
  have hlife : Lifetime.unbounded.polls = none := rfl
  rcases findNodes_keepsPaths hg filter accept hdepth hlife with ⟨⟨k, hk, hgk⟩, ⟨l, hl, hvl⟩⟩
  rw [hwhole, Except.ok.injEq] at hk
  rw [hview, Except.ok.injEq] at hl
  subst hk hl
  -- Without the calls back, numbers ascend along calls, so the view has no cycles.
  have hlawful : Lawful (View.mk rootedLetters filter) := View.lawful hg.wellFormed.lawful
  have hup : ∀ a ∈ nodes (View.mk rootedLetters filter),
      ∀ b ∈ succs (View.mk rootedLetters filter) a, a.id < b.id := by
    decide +kernel
  exact ⟨⟨hwhole, hgk, by decide +kernel⟩, hview,
    hvl.iff_of_acyclic rfl fun n _ => acyclic_of_ascending hlawful hup n⟩

end Prune

end CallAtlas
