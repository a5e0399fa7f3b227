import CallAtlas.Proofs.Prune.Kept
import CallAtlas.Proofs.Prune.Monotone

/-!
# How Often the Traversal Looks

The traversal looks whether its caller still waits once for each node it enters, and
asks the policy once for each node it leaves. This module says that it enters each
reachable node once. So a caller who waits for as many looks as there are reachable
nodes gets the whole result, and a caller who waits for fewer gets none.

Looks are paid for by marks. At any moment the looks that a caller has left and the
nodes that are marked make up what the caller had at the start, which is `Paid`. A
traversal that is over has marked what can be reached. One that is cut short has no look
left, and has come to a node that can be reached and was not marked. These are the two
ways to end.

That a caller who waits long enough gets the same as one who waits for ever is the same
argument as for policies that accept more: the two traversals go in step.

## Main definitions

* `Prune.Paid`: Each mark was paid for with a look.
* `Prune.Recorded`: The policy was asked about the marked nodes that are not on the path.
* `Prune.Moment`: A moment of a traversal.
* `Prune.SimplePath`: A path of edges from the fake root that repeats no node.
* `Prune.VisitsOnce`: Each reachable node is visited once.

## Theorems

* `Prune.Paid.turn`, `Prune.Recorded.turn`: What a turn keeps.
* `Prune.Trail.isChain`: The path by which the traversal comes to a node.
* `Prune.visit_cases`: A traversal that has looks enough is over, and one that has not is cut
  short.
* `Prune.findNodes_visitsOnce`: The traversal of a graph and of a view of it.
-/

namespace CallAtlas

/-! ## Looks -/

namespace Lifetime

variable {l l' : Lifetime}

/-- A caller that is found to wait waits for one look less. -/
theorem polls_of_waiting (h : l.poll = (none, l')) :
    l'.polls.map (· + 1) = l.polls ∧ l'.cause = l.cause := by
  unfold poll at h
  split at h
  · next hpolls =>
    rw [← (Prod.mk.inj h).2]
    simp [hpolls]
  · exact absurd (Prod.mk.inj h).1 (by simp)
  · next k hpolls =>
    rw [← (Prod.mk.inj h).2]
    simp [hpolls]

/-- A caller that is found to wait no longer had no look left. -/
theorem polls_of_ended {cause : EndCause} (h : l.poll = (some cause, l')) :
    l.polls = some 0 ∧ cause = l.cause := by
  unfold poll at h
  split at h
  · exact absurd (Prod.mk.inj h).1 (by simp)
  · next hpolls => exact ⟨hpolls, (Option.some.inj (Prod.mk.inj h).1).symm⟩
  · exact absurd (Prod.mk.inj h).1 (by simp)

end Lifetime

namespace Prune

open CallGraph (Lawful LeadsTo nodes succs reachable fakeRoot)
open Relation (ReflTransGen)

variable {G : Type} [CallGraph G] {g : G} {accept : KeepPolicy} {depth : Nat} {root n m t : Node}
  {frames : List (Node × List Node)} {todo path : List Node} {marked keep : IdSet}

/-- Each mark was paid for with a look: the looks left and the marks make up what there was. -/
def Paid (life : Lifetime) (s : Search) : Prop :=
  s.life.polls.map (· + s.marked.size) = life.polls ∧ s.life.cause = life.cause

/-- A look pays for a mark. -/
theorem Paid.mark {life life' : Lifetime} {s : Search} (h : Paid life s) (hnew : t.id ∉ s.marked)
    (hpoll : s.life.poll = (none, life')) : Paid life (s.mark t life') := by
  rcases Lifetime.polls_of_waiting hpoll with ⟨hpolls, hcause⟩
  refine ⟨?_, hcause.trans h.2⟩
  rw [← h.1, ← hpolls, Option.map_map]
  change life'.polls.map (· + (s.marked.insert t.id).size) = _
  rw [IdSet.size_insert hnew]
  congr 1
  funext k
  simp only [Function.comp_apply]
  omega

/-- A turn that enters a node takes a look, and no other turn does. -/
theorem Paid.turn {life : Lifetime} {w w' : Walk} (h : Paid life w.search)
    (hturn : Turn g accept depth w w') : Paid life w'.search := by
  cases hturn with
  | enter hnew hpoll => exact h.mark hnew hpoll
  | join _ _ => exact h
  | pass _ _ => exact h
  | keep _ => exact h
  | leave _ => exact h

/-! ## Questions -/

/-- The policy was asked once about each node that was left. The nodes that are marked
    are these and those on the path. -/
structure Recorded (g : G) (w : Walk) : Prop where
  nodup : (w.search.asked ++ pathOf w.frames).Nodup
  mem_iff : ∀ n, n ∈ w.search.asked ++ pathOf w.frames ↔ n ∈ nodes g ∧ n.id ∈ w.search.marked

/-- A node that is entered goes on the path and is marked, so the record stays complete. -/
theorem Recorded.enter (hg : Lawful g) {s : Search} {life : Lifetime} (h : Recorded g ⟨frames, s⟩)
    (ht : t ∈ nodes g) (hnew : t.id ∉ s.marked) :
    Recorded g ⟨(t, succs g t) :: frames, s.mark t life⟩ := by
  -- The node is put last on the path, so it comes last in the list.
  have hlist : s.asked ++ pathOf ((t, succs g t) :: frames) =
      (s.asked ++ pathOf frames) ++ [t] := by
    rw [pathOf_cons, List.append_assoc]
  constructor
  · change (s.asked ++ pathOf ((t, succs g t) :: frames)).Nodup
    rw [hlist]
    refine List.nodup_append.2 ⟨h.nodup, List.nodup_singleton t, ?_⟩
    rintro a ha b hb rfl
    rw [List.mem_singleton] at hb
    rw [hb] at ha
    exact hnew ((h.mem_iff t).1 ha).2
  · intro n
    change n ∈ s.asked ++ pathOf ((t, succs g t) :: frames) ↔
      n ∈ nodes g ∧ n.id ∈ s.marked.insert t.id
    rw [hlist, List.mem_append, h.mem_iff, List.mem_singleton, IdSet.mem_insert]
    constructor
    · rintro (⟨hn, hmarked⟩ | rfl)
      · exact ⟨hn, Or.inr hmarked⟩
      · exact ⟨ht, Or.inl rfl⟩
    · rintro ⟨hn, hid | hmarked⟩
      · -- The mark is the number, and the number tells the node.
        exact Or.inr (hg.eq_of_id hn ht hid)
      · exact Or.inl ⟨hn, hmarked⟩

/-- A node that is left goes from the path to the nodes that the policy was asked about. -/
theorem Recorded.leave {s s' : Search} (h : Recorded g ⟨(n, todo) :: frames, s⟩)
    (hasked : s'.asked = s.asked ++ [n]) (hmarked : s'.marked = s.marked) :
    Recorded g ⟨frames, s'⟩ := by
  have hperm : (s'.asked ++ pathOf frames).Perm (s.asked ++ pathOf ((n, todo) :: frames)) := by
    rw [hasked, pathOf_cons, List.append_assoc]
    exact List.perm_append_comm.append_left s.asked
  refine ⟨hperm.nodup_iff.2 h.nodup, fun m => ?_⟩
  rw [hperm.mem_iff, h.mem_iff, hmarked]

/-- A turn keeps the record. Nodes change from the path to the questions, and none is
    asked about while it is on the path. -/
theorem Recorded.turn (hg : Lawful g) {w w' : Walk} (hpaced : Paced g root w.frames w.search.marked)
    (h : Recorded g w) (hturn : Turn g accept depth w w') : Recorded g w' := by
  cases hturn with
  | @enter n t todo frames s life hnew _ =>
      have ht := hpaced.todo_succs List.mem_cons_self t List.mem_cons_self
      have hlook : Recorded g ⟨(n, todo) :: frames, s⟩ := ⟨h.nodup, h.mem_iff⟩
      exact hlook.enter hg (hg.mem_succs.1 ht).1 hnew
  | join _ _ => exact ⟨h.nodup, h.mem_iff⟩
  | pass _ _ => exact ⟨h.nodup, h.mem_iff⟩
  | keep _ => exact h.leave rfl rfl
  | leave _ => exact h.leave rfl rfl

/-! ## Moments of a traversal -/

/-- A traversal while its caller waits: what it marked was paid for and recorded. -/
structure Visiting (g : G) (root : Node) (life : Lifetime) (w : Walk) : Prop
    extends Paced g root w.frames w.search.marked, Recorded g w where
  paid : Paid life w.search

/-- The traversal begins with one look, one mark and no question. -/
theorem visiting_start (hg : Lawful g) (hroot : root ∈ nodes g) {life life' : Lifetime}
    (hpoll : life.poll = (none, life')) : Visiting g root life (.start g root life') := by
  have hnone : Recorded g ⟨[], {}⟩ :=
    ⟨List.nodup_nil, fun n => iff_of_false List.not_mem_nil fun hn => IdSet.not_mem_empty hn.2⟩
  have hpaid : Paid life { life } := ⟨by simp [IdSet.size, IdSet.empty], rfl⟩
  exact ⟨paced_start hg hroot, hnone.enter hg hroot IdSet.not_mem_empty,
    hpaid.mark IdSet.not_mem_empty hpoll⟩

/-- Turns keep what was paid for and recorded. -/
theorem Visiting.turns (hg : Lawful g) {life : Lifetime} {w w' : Walk}
    (h : Visiting g root life w) (hturns : ReflTransGen (Turn g accept depth) w w') :
    Visiting g root life w' := by
  induction hturns with
  | refl => exact h
  | tail _ hturn ih =>
      exact ⟨ih.toPaced.turn hg hturn, ih.toRecorded.turn hg ih.toPaced hturn, ih.paid.turn hturn⟩

/-- A traversal has no choice. Whether a callee is entered is told by the marks, whether
    the path is kept by what is kept, and whether a node is kept by the policy. -/
theorem Turn.unique {w w₁ w₂ : Walk} (h₁ : Turn g accept depth w w₁)
    (h₂ : Turn g accept depth w w₂) : w₁ = w₂ := by
  cases h₁ with
  -- Two turns of different kinds contradict each other in what they require.
  | enter hnew hpoll =>
      cases h₂ with
      | enter _ hpoll' => rw [(Prod.mk.inj (hpoll.symm.trans hpoll')).2]
      | join hmarked _ => exact absurd hmarked hnew
      | pass hmarked _ => exact absurd hmarked hnew
  | join hmarked hkept =>
      cases h₂ with
      | enter hnew _ => exact absurd hmarked hnew
      | join _ _ => rfl
      | pass _ hnot => exact absurd hkept hnot
  | pass hmarked hnot =>
      cases h₂ with
      | enter hnew _ => exact absurd hmarked hnew
      | join _ hkept => exact absurd hkept hnot
      | pass _ _ => rfl
  | keep haccept =>
      cases h₂ with
      | keep _ => rfl
      | leave hreject => exact absurd (haccept.symm.trans hreject) (by simp)
  | leave hreject =>
      cases h₂ with
      | keep haccept => exact absurd (haccept.symm.trans hreject) (by simp)
      | leave _ => rfl

/-- A moment of a traversal, after the root was entered. -/
def Moment (g : G) (accept : KeepPolicy) (depth : Nat) (life : Lifetime) (w : Walk) : Prop :=
  ∃ root life', fakeRoot g = some root ∧ life.poll = (none, life') ∧
    ReflTransGen (Turn g accept depth) (.start g root life') w

theorem Moment.visiting (hg : Lawful g) {life : Lifetime} {w : Walk}
    (h : Moment g accept depth life w) :
    ∃ root, fakeRoot g = some root ∧ Visiting g root life w := by
  rcases h with ⟨root, life', hroot, hpoll, hturns⟩
  have hin := Reached.mem_nodes hg ⟨root, hroot, .refl⟩
  exact ⟨root, hroot, (visiting_start hg hin hpoll).turns hg hturns⟩

/-- A path of edges from the fake root that repeats no node. -/
structure SimplePath (g : G) (path : List Node) : Prop where
  nodup : path.Nodup
  edges : path.IsChain fun a b => CallGraph.hasEdge g a b
  rooted : ∀ n, path.head? = some n → fakeRoot g = some n

/-- The path by which the traversal comes to a node is made of edges and starts at the root. -/
theorem Trail.isChain (hg : Lawful g) (h : Trail g root path n) :
    (path ++ [n]).IsChain (fun a b => CallGraph.hasEdge g a b) ∧
      (path ++ [n]).head? = some root := by
  induction h with
  | start => exact ⟨List.isChain_singleton _, rfl⟩
  | @call path n k _ hk ih =>
      refine ⟨List.isChain_append.2 ⟨ih.1, List.isChain_singleton _, ?_⟩, ?_⟩
      · intro a ha b hb
        rw [List.getLast?_concat, Option.mem_some_iff] at ha
        rw [List.head?_singleton, Option.mem_some_iff] at hb
        rw [← ha, ← hb]
        exact (hg.mem_succs.1 hk).2
      · rw [List.head?_append, ih.2]
        rfl

/-- The path of a traversal repeats no node and starts at the root. -/
theorem Paced.simplePath (hg : Lawful g) (hroot : fakeRoot g = some root)
    (h : Paced g root frames marked) : SimplePath g (pathOf frames) := by
  refine ⟨h.standing.nodup, ?_, ?_⟩
  · -- Before the first and after the last frame the path is empty.
    cases frames with
    | nil => exact List.isChain_nil
    | cons frame rest =>
        rw [pathOf_cons]
        exact ((h.trail rfl).isChain hg).1
  · intro n hn
    cases frames with
    | nil => exact absurd hn (by simp [pathOf])
    | cons frame rest =>
        rw [pathOf_cons, ((h.trail rfl).isChain hg).2] at hn
        rw [hroot, ← hn]

/-! ## When the traversal ends -/

/-- What a search from the root finds is what is reached. -/
theorem mem_reachable_root (hg : Lawful g) {i : Int} :
    i ∈ reachable g [fakeRoot g] ↔ ∃ n, n.id = i ∧ Reached g n := by
  rw [hg.mem_reachable]
  refine exists_congr fun n => and_congr_right fun _ => exists_congr fun a => ?_
  rw [List.mem_singleton, eq_comm]
  constructor
  · rintro ⟨hroot, _, hled⟩
    exact ⟨hroot, hled⟩
  · rintro ⟨hroot, hled⟩
    exact ⟨hroot, Reached.mem_nodes hg ⟨a, hroot, .refl⟩, hled⟩

/-- A traversal that is over has marked what can be reached. -/
theorem Paced.marked_eq (hg : Lawful g) (hroot : fakeRoot g = some root)
    (h : Paced g root [] marked) : marked = reachable g [fakeRoot g] := by
  refine IdSet.ext fun i => ?_
  rw [mem_reachable_root hg]
  constructor
  · intro hi
    rcases h.reached i hi with ⟨n, _, hid, hled⟩
    exact ⟨n, hid, root, hroot, hled⟩
  · rintro ⟨n, rfl, root', hroot', hled⟩
    obtain rfl : root = root' := Option.some.inj (hroot.symm.trans hroot')
    exact h.marked_of_leadsTo hg (Reached.mem_nodes hg ⟨root, hroot, .refl⟩) hled

/-- A traversal that comes to a node that is not marked has marked less than can be
    reached. Here the count is strict, so a caller whose looks were all used up waits
    for too few. -/
theorem Paced.size_lt (hg : Lawful g) (hroot : fakeRoot g = some root)
    (h : Paced g root ((n, t :: todo) :: frames) marked) (hnew : t.id ∉ marked) :
    marked.size < (reachable g [fakeRoot g]).size := by
  have ht := h.todo_succs List.mem_cons_self t List.mem_cons_self
  have hn := h.standing.mem n (mem_pathOf.2 ⟨_, List.mem_cons_self⟩)
  have hsub : t.id :: marked.toList ⊆ (reachable g [fakeRoot g]).toList := by
    intro i hi
    rw [IdSet.mem_toList, mem_reachable_root hg]
    rcases List.mem_cons.1 hi with rfl | hi
    · exact ⟨t, rfl, root, hroot, (h.leadsTo hg hn.1 hn.2).tail ht⟩
    · rcases h.reached i hi with ⟨m, _, hid, hled⟩
      exact ⟨m, hid, root, hroot, hled⟩
  exact ((List.nodup_cons.2 ⟨hnew, marked.nodup_toList⟩).subperm hsub).length_le

/-- A traversal that has looks enough is over at some moment. One that has not is cut
    short at some moment, or before the first. Looks and marks are counted against each
    other: at the end as many nodes are marked as can be reached, and at a cut fewer. -/
theorem visit_cases (hg : Lawful g) (accept : KeepPolicy) (depth : Nat)
    (hroot : fakeRoot g = some root) (life : Lifetime) :
    (∃ s, visit g accept depth (nodes g).length [] root { life } = .ok s ∧
        Moment g accept depth life ⟨[], s⟩ ∧
        ∀ k, life.polls = some k → (reachable g [fakeRoot g]).size ≤ k) ∨
      (visit g accept depth (nodes g).length [] root { life } = .error life.cause ∧
        (life.poll.1 = some life.cause ∨ ∃ w, Moment g accept depth life w ∧ Cut life.cause w) ∧
        ∃ k, life.polls = some k ∧ k < (reachable g [fakeRoot g]).size) := by
  rcases visits_root hg accept depth hroot life with ⟨cause, life', hpoll, hr⟩ | ⟨life', hpoll, hr⟩
  · rcases Lifetime.polls_of_ended hpoll with ⟨hpolls, rfl⟩
    have hmem : root.id ∈ reachable g [fakeRoot g] :=
      (mem_reachable_root hg).2 ⟨root, rfl, root, hroot, .refl⟩
    exact Or.inr ⟨hr, Or.inl (congrArg Prod.fst hpoll), 0, hpolls, List.length_pos_of_mem hmem⟩
  · have hin := Reached.mem_nodes hg ⟨root, hroot, .refl⟩
    have hstart := visiting_start hg hin hpoll
    cases hv : visit g accept depth (nodes g).length [] root { life } with
    | ok s =>
        rw [hv] at hr
        have hend := hstart.turns hg hr
        refine Or.inl ⟨s, rfl, ⟨root, life', hroot, hpoll, hr⟩, fun k hk => ?_⟩
        -- What is left of the looks does not matter.
        have hpaid : s.life.polls.map (· + s.marked.size) = life.polls := hend.paid.1
        have hmarked : s.marked = reachable g [fakeRoot g] := hend.toPaced.marked_eq hg hroot
        rw [hk] at hpaid
        rcases Option.map_eq_some_iff.1 hpaid with ⟨left, _, hsum⟩
        rw [← hmarked, ← hsum]
        exact Nat.le_add_left _ left
    | error cause =>
        rw [hv] at hr
        rcases hr with ⟨w, hturns, hcut⟩
        have hend := hstart.turns hg hturns
        have hmoment : Moment g accept depth life w := ⟨root, life', hroot, hpoll, hturns⟩
        cases hcut with
        | @intro n t todo frames s life'' hnew hended =>
            rcases Lifetime.polls_of_ended hended with ⟨hpolls, rfl⟩
            have hcause : s.life.cause = life.cause := hend.paid.2
            have hpaid : s.life.polls.map (· + s.marked.size) = life.polls := hend.paid.1
            rw [hpolls, Option.map_some, Nat.zero_add] at hpaid
            rw [hcause] at hended ⊢
            exact Or.inr ⟨rfl, Or.inr ⟨_, hmoment, .intro hnew hended⟩, s.marked.size, hpaid.symm,
              hend.toPaced.size_lt hg hroot hnew⟩

theorem findNodes_of_visit {depth : Int} (hdepth : 0 ≤ depth) (hroot : fakeRoot g = some root)
    {life : Lifetime} {s : Search}
    (hv : visit g accept depth.toNat (nodes g).length [] root { life } = .ok s) :
    findNodes g accept depth life = .ok s.keep := by
  simp only [findNodes, if_neg (Int.not_lt.2 hdepth), hroot, hv]

theorem findNodes_of_cut {depth : Int} (hdepth : 0 ≤ depth) (hroot : fakeRoot g = some root)
    {life : Lifetime} {cause : EndCause}
    (hv : visit g accept depth.toNat (nodes g).length [] root { life } = .error cause) :
    findNodes g accept depth life = .error (.cancelled cause) := by
  simp only [findNodes, if_neg (Int.not_lt.2 hdepth), hroot, hv]

/-- What is kept does not depend on how long the caller would have waited. A policy
    accepts no less than itself, so each of the two keeps no less than the other. -/
theorem eq_of_findNodes {depth : Int} {life life' : Lifetime} {keep keep' : IdSet}
    (hok : findNodes g accept depth life = .ok keep)
    (hok' : findNodes g accept depth life' = .ok keep') : keep = keep' :=
  IdSet.ext fun _ => ⟨mem_findNodes_of_mem (fun _ h => h) le_rfl hok hok',
    mem_findNodes_of_mem (fun _ h => h) le_rfl hok' hok⟩

/-! ## The whole traversal -/

/-- Each reachable node is visited once. -/
structure VisitsOnce (g : G) (accept : KeepPolicy) (depth : Int) : Prop where
  /-- A caller who waits for ever gets a result. -/
  total : ∃ keep, findNodes g accept depth .unbounded = .ok keep
  /-- A caller who waits for `k` looks gets everything, unless more nodes can be reached. -/
  cut : ∀ k cause, findNodes g accept depth { polls := some k, cause } =
    if k < (reachable g [fakeRoot g]).size then .error (.cancelled cause)
    else findNodes g accept depth .unbounded
  /-- A traversal that is over has left every node, and asked once about each that can be
      reached. -/
  completed : ∀ {life root s}, fakeRoot g = some root →
    visit g accept depth.toNat (nodes g).length [] root { life } = .ok s →
    Moment g accept depth.toNat life ⟨[], s⟩ ∧ s.asked.Nodup ∧
      ∀ n, n ∈ s.asked ↔ n ∈ nodes g ∧ n.id ∈ reachable g [fakeRoot g]
  /-- A traversal that is cut short is so before it begins, or between turns. -/
  stopped : ∀ {life root cause}, fakeRoot g = some root →
    visit g accept depth.toNat (nodes g).length [] root { life } = .error cause →
    life.poll.1 = some cause ∨ ∃ w, Moment g accept depth.toNat life w ∧ Cut cause w
  /-- The moments of a traversal follow one another. -/
  onward : ∀ {life w w₁ w₂}, Moment g accept depth.toNat life w →
    Turn g accept depth.toNat w w₁ → Turn g accept depth.toNat w w₂ →
    w₁ = w₂ ∧ Moment g accept depth.toNat life w₁
  /-- At every moment the path repeats no node. -/
  simple : ∀ {life w}, Moment g accept depth.toNat life w → SimplePath g (pathOf w.frames)

/-- What is said of visits holds of every lawful graph, so views have it too. A visit
    takes a look for each node that it marks, and a completed one has marked what can be
    reached. A caller who waits for fewer looks gets a cancellation, and one who waits for
    as many gets what a caller without a limit gets. -/
theorem visitsOnce_of_lawful (hg : Lawful g) (accept : KeepPolicy) {depth : Int}
    (hdepth : 0 ≤ depth) : VisitsOnce g accept depth := by
  rcases connected_findNodes (r := g) accept hdepth (rfl : Lifetime.unbounded.polls = none) with
    ⟨whole, hwhole, _⟩
  refine ⟨⟨whole, hwhole⟩, ?_, ?_, ?_, ?_, ?_⟩
  · intro k cause
    cases hroot : fakeRoot g with
    | none =>
        -- Without a root nothing can be reached and no look is taken.
        have hempty : reachable g [none] = .empty := by
          refine IdSet.ext fun i => iff_of_false (fun hi => ?_) IdSet.not_mem_empty
          rw [← hroot, mem_reachable_root hg] at hi
          rcases hi with ⟨n, _, root, h, _⟩
          exact absurd (hroot.symm.trans h) (by simp)
        have hsize : ¬k < IdSet.empty.size := Nat.not_lt_zero k
        rw [hempty, if_neg hsize]
        simp only [findNodes, if_neg (Int.not_lt.2 hdepth), hroot]
    | some root =>
        rw [← hroot]
        rcases visit_cases hg accept depth.toNat hroot { polls := some k, cause } with
          ⟨s, hv, _, henough⟩ | ⟨hv, _, k', hk', hlt⟩
        · have hok := findNodes_of_visit hdepth hroot hv
          rw [if_neg (Nat.not_lt.2 (henough k rfl)), hwhole, hok, eq_of_findNodes hok hwhole]
        · obtain rfl : k = k' := Option.some.inj hk'
          rw [if_pos hlt]
          exact findNodes_of_cut hdepth hroot hv
  · intro life root s hroot hv
    rcases visit_cases hg accept depth.toNat hroot life with ⟨s', hv', hmoment, _⟩ | ⟨hv', _⟩
    · obtain rfl : s = s' := Except.ok.inj (hv.symm.trans hv')
      rcases hmoment.visiting hg with ⟨root', hroot', hend⟩
      have hnodup : (s.asked ++ []).Nodup := hend.nodup
      have hmem : ∀ n, n ∈ s.asked ++ [] ↔ n ∈ nodes g ∧ n.id ∈ s.marked := hend.mem_iff
      rw [List.append_nil] at hnodup hmem
      rw [← hend.toPaced.marked_eq hg hroot']
      exact ⟨hmoment, hnodup, hmem⟩
    · exact absurd (hv.symm.trans hv') (by simp)
  · intro life root cause hroot hv
    rcases visit_cases hg accept depth.toNat hroot life with ⟨s', hv', _⟩ | ⟨hv', hstopped, _⟩
    · exact absurd (hv.symm.trans hv') (by simp)
    · obtain rfl : cause = life.cause := Except.error.inj (hv.symm.trans hv')
      exact hstopped
  · rintro life w w₁ w₂ ⟨root, life', hroot, hpoll, hturns⟩ h₁ h₂
    exact ⟨h₁.unique h₂, root, life', hroot, hpoll, hturns.tail h₁⟩
  · intro life w hmoment
    rcases hmoment.visiting hg with ⟨root, hroot, hw⟩
    exact hw.toPaced.simplePath hg hroot

/-- The traversal of a graph, and of any view of it, visits each reachable node once. So
    a caller can tell beforehand how long to wait: for as many looks as there are
    reachable nodes, and for none if there is no root. -/
theorem findNodes_visitsOnce {g : Graph} (hg : g.Obtainable) (filter : Filter)
    (accept : KeepPolicy) {depth : Int} (hdepth : 0 ≤ depth) :
    VisitsOnce g accept depth ∧ VisitsOnce (View.mk g filter) accept depth := by
  have hlawful : Lawful g := hg.wellFormed.lawful
  have hview : Lawful (View.mk g filter) := View.lawful hlawful
  exact ⟨visitsOnce_of_lawful hlawful accept hdepth, visitsOnce_of_lawful hview accept hdepth⟩

/-- Four nodes can be reached, so three looks are not enough and four are. In the view without
    the root none is needed. -/
theorem findNodes_visitsOnce_letters :
    let accept : KeepPolicy := fun n => n.id = 3
    let view : View := View.mk rootedLetters { keep := IdSet.ofList [2, 3, 4] }
    (reachable rootedLetters [fakeRoot rootedLetters] = IdSet.ofList [0, 2, 3, 4] ∧
      findNodes rootedLetters accept 1 ⟨some 3, .deadlineExceeded⟩ =
        .error (.cancelled .deadlineExceeded) ∧
      findNodes rootedLetters accept 1 ⟨some 4, .deadlineExceeded⟩ =
        findNodes rootedLetters accept 1 .unbounded) ∧
    (fakeRoot view = none ∧ findNodes view accept 1 ⟨some 0, .canceled⟩ =
      findNodes view accept 1 .unbounded) := by
  intro accept view
  have hg : rootedLetters.Obtainable := Graph.Obtainable.afterAll ⟨0, _, rfl⟩ _
  have hdepth : (0 : Int) ≤ 1 := by decide
  rcases findNodes_visitsOnce hg { keep := IdSet.ofList [2, 3, 4] } accept hdepth with
    ⟨hgraph, hview⟩
  have hreach : reachable rootedLetters [fakeRoot rootedLetters] = IdSet.ofList [0, 2, 3, 4] := by
    decide +kernel
  -- How many looks are needed is the number of nodes that can be reached.
  have hsize : (reachable rootedLetters [fakeRoot rootedLetters]).size = 4 := by
    rw [hreach]
    decide
  have hnone : (reachable view [fakeRoot view]).size = 0 := by decide +kernel
  refine ⟨⟨hreach, ?_, ?_⟩, by decide +kernel, ?_⟩
  · rw [hgraph.cut, hsize, if_pos (by decide)]
  · rw [hgraph.cut, hsize, if_neg (by decide)]
  · rw [hview.cut, hnone, if_neg (by decide)]

end Prune

end CallAtlas
