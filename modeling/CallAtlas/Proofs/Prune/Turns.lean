import CallAtlas.Proofs.Prune.Ball

/-!
# The Traversal Turn by Turn

The traversal is a recursion with a loop inside, and what it decides depends on how far
each of the nodes on its path has got. A statement about that is hard to make from
outside the recursion. Here the traversal is laid out as a sequence of turns between
walks. A walk has the whole path, and for each node on it the callees that the node has
still to look at. A turn looks at one callee of the node that was entered last, or
leaves that node when no callee is left.

The recursion is opened once, in `visits_visit`. What holds of a traversal is then shown
by what a single turn keeps. A traversal whose caller has gone stops between turns, and
the walk it stops at is part of what the recursion comes to.

The recursion is given room for as many nodes as the graph has, and gives up silently
without it. It never comes to that: the nodes on the path are distinct nodes of the
graph, and the node that is entered next is not one of them.

## Main definitions

* `Prune.Walk`: The path of the traversal, with what is still to do, and what it found.
* `Prune.Turn`: A callee is entered, joined or passed, or a node is left.
* `Prune.Standing`: The path is made of distinct nodes that are marked.
* `Prune.Cut`, `Prune.Yields`, `Prune.Visits`: What part of the traversal comes to, if its caller
  waits and if not.

## Theorems

* `Prune.visits_visit`: A visit is a sequence of turns.
* `Prune.turns_findNodes`: So is the whole traversal.
-/

namespace CallAtlas

namespace Prune

open CallGraph (Lawful nodes succs)
open Relation (ReflTransGen)

variable {G : Type} [CallGraph G] {g : G} {accept : KeepPolicy} {depth : Nat}

/-- The traversal at one moment: the nodes on its path, the last one first, each with
    the callees it has still to look at, and what was found so far. -/
structure Walk where
  frames : List (Node × List Node)
  search : Search

/-- The path of a walk, from the root on. -/
def pathOf (frames : List (Node × List Node)) : List Node := (frames.map Prod.fst).reverse

@[simp] theorem pathOf_cons (n : Node) (todo : List Node) (frames : List (Node × List Node)) :
    pathOf ((n, todo) :: frames) = pathOf frames ++ [n] := by
  rw [pathOf, List.map_cons, List.reverse_cons, pathOf]

theorem length_pathOf (frames : List (Node × List Node)) :
    (pathOf frames).length = frames.length := by
  rw [pathOf, List.length_reverse, List.length_map]

theorem mem_pathOf {frames : List (Node × List Node)} {n : Node} :
    n ∈ pathOf frames ↔ ∃ todo, (n, todo) ∈ frames := by
  simp [pathOf]

/-- A node is marked as visited. -/
def Search.mark (s : Search) (n : Node) (life : Lifetime) : Search :=
  { s with marked := s.marked.insert n.id, life }

/-- The policy was asked about a node. -/
def Search.ask (s : Search) (n : Node) : Search := { s with asked := s.asked ++ [n] }

/-- One turn of the traversal. A callee that was not visited is entered. One that was
    makes the path be kept if it is kept itself. A node without callees left is left. -/
inductive Turn (g : G) (accept : KeepPolicy) (depth : Nat) : Walk → Walk → Prop
  | enter {n t : Node} {todo : List Node} {frames : List (Node × List Node)} {s : Search}
      {life : Lifetime} : t.id ∉ s.marked → s.life.poll = (none, life) →
      Turn g accept depth ⟨(n, t :: todo) :: frames, s⟩
        ⟨(t, succs g t) :: (n, todo) :: frames, s.mark t life⟩
  | join {n t : Node} {todo : List Node} {frames : List (Node × List Node)} {s : Search} :
      t.id ∈ s.marked → t.id ∈ s.keep →
      Turn g accept depth ⟨(n, t :: todo) :: frames, s⟩
        ⟨(n, todo) :: frames, s.keepPath (pathOf frames ++ [n])⟩
  | pass {n t : Node} {todo : List Node} {frames : List (Node × List Node)} {s : Search} :
      t.id ∈ s.marked → t.id ∉ s.keep →
      Turn g accept depth ⟨(n, t :: todo) :: frames, s⟩ ⟨(n, todo) :: frames, s⟩
  | keep {n : Node} {frames : List (Node × List Node)} {s : Search} : accept n = true →
      Turn g accept depth ⟨(n, []) :: frames, s⟩
        ⟨frames, ((s.ask n).keepPath (pathOf frames ++ [n])).extend g depth n⟩
  | leave {n : Node} {frames : List (Node × List Node)} {s : Search} : accept n = false →
      Turn g accept depth ⟨(n, []) :: frames, s⟩ ⟨frames, s.ask n⟩

/-- No turn takes a mark away. -/
theorem Turn.marked {w w' : Walk} (h : Turn g accept depth w w') {i : Int}
    (hi : i ∈ w.search.marked) : i ∈ w'.search.marked := by
  cases h with
  | enter _ _ => exact IdSet.mem_insert.2 (Or.inr hi)
  | join _ _ => exact hi
  | pass _ _ => exact hi
  | keep _ => exact hi
  | leave _ => exact hi

theorem marked_of_turns {w w' : Walk} (h : ReflTransGen (Turn g accept depth) w w') {i : Int}
    (hi : i ∈ w.search.marked) : i ∈ w'.search.marked := by
  induction h with
  | refl => exact hi
  | tail _ hturn ih => exact hturn.marked ih

/-! ## The recursion -/

/-- The path is made of distinct nodes of the graph that are marked. -/
structure Standing (g : G) (path : List Node) (marked : IdSet) : Prop where
  nodup : path.Nodup
  mem : ∀ n ∈ path, n ∈ nodes g ∧ n.id ∈ marked

theorem Standing.mono {path : List Node} {marked marked' : IdSet} (h : Standing g path marked)
    (hsub : ∀ i ∈ marked, i ∈ marked') : Standing g path marked' :=
  ⟨h.nodup, fun n hn => ⟨(h.mem n hn).1, hsub _ (h.mem n hn).2⟩⟩

theorem Standing.not_mem {path : List Node} {marked : IdSet} (h : Standing g path marked)
    {n : Node} (hnew : n.id ∉ marked) : n ∉ path := fun hn => hnew (h.mem n hn).2

/-- A node that is not marked may be entered, which marks it. -/
theorem Standing.enter {path : List Node} {marked : IdSet} (h : Standing g path marked) {n : Node}
    (hn : n ∈ nodes g) (hnew : n.id ∉ marked) :
    Standing g (path ++ [n]) (marked.insert n.id) := by
  constructor
  · -- The node is not on the path, since what is on the path is marked.
    refine List.nodup_append.2 ⟨h.nodup, List.nodup_singleton n, ?_⟩
    rintro a ha b hb rfl
    rw [List.mem_singleton] at hb
    subst hb
    exact h.not_mem hnew ha
  · intro k hk
    rcases List.mem_append.1 hk with hk | hk
    · exact ⟨(h.mem k hk).1, IdSet.mem_insert.2 (Or.inr (h.mem k hk).2)⟩
    · rw [List.mem_singleton] at hk
      subst hk
      exact ⟨hn, IdSet.mem_insert.2 (Or.inl rfl)⟩

/-- The path is shorter than the graph has nodes as long as there is one to enter. The
    path and this node are distinct nodes of the graph. -/
theorem Standing.length_lt {path : List Node} {marked : IdSet} (h : Standing g path marked)
    {n : Node} (hn : n ∈ nodes g) (hnew : n.id ∉ marked) : path.length < (nodes g).length := by
  have hsub : n :: path ⊆ nodes g := by
    intro k hk
    rcases List.mem_cons.1 hk with rfl | hk
    · exact hn
    · exact (h.mem k hk).1
  exact ((List.nodup_cons.2 ⟨h.not_mem hnew, h.nodup⟩).subperm hsub).length_le

/-- What a visit does with a callee of the node it is at. -/
def lookAt (g : G) (accept : KeepPolicy) (depth room : Nat) (path : List Node) (s : Search)
    (t : Node) : Except EndCause Search :=
  if t.id ∉ s.marked then visit g accept depth room path t s
  else if t.id ∈ s.keep then pure (s.keepPath path)
  else pure s

/-- The traversal is cut short: it comes to a node that was not visited, and the caller has gone. -/
inductive Cut (cause : EndCause) : Walk → Prop
  | intro {n t : Node} {todo : List Node} {frames : List (Node × List Node)} {s : Search}
      {life : Lifetime} : t.id ∉ s.marked → s.life.poll = (some cause, life) →
      Cut cause ⟨(n, t :: todo) :: frames, s⟩

/-- What part of the traversal comes to. It takes turns until some frames are left, or
    until it is cut short. -/
def Yields (g : G) (accept : KeepPolicy) (depth : Nat) (w : Walk)
    (frames : List (Node × List Node)) : Except EndCause Search → Prop
  | .ok s => ReflTransGen (Turn g accept depth) w ⟨frames, s⟩
  | .error cause => ∃ w', ReflTransGen (Turn g accept depth) w w' ∧ Cut cause w'

/-- What follows some turns follows from before them. -/
theorem Yields.after {w w' : Walk} {frames : List (Node × List Node)} {r : Except EndCause Search}
    (h : Yields g accept depth w' frames r) (hturns : ReflTransGen (Turn g accept depth) w w') :
    Yields g accept depth w frames r := by
  cases r with
  | ok s => exact hturns.trans h
  | error cause =>
      rcases h with ⟨w'', hrest, hcut⟩
      exact ⟨w'', hturns.trans hrest, hcut⟩

/-- Parts of the traversal may be put one after the other. A part that is cut short cuts
    the whole short, at the same moment. -/
theorem Yields.bind {w : Walk} {frames frames' : List (Node × List Node)}
    {r : Except EndCause Search} {f : Search → Except EndCause Search}
    (h : Yields g accept depth w frames r)
    (hf : ∀ s, ReflTransGen (Turn g accept depth) w ⟨frames, s⟩ →
      Yields g accept depth ⟨frames, s⟩ frames' (f s)) :
    Yields g accept depth w frames' (r >>= f) := by
  cases r with
  | ok s => exact (hf s h).after h
  | error cause => exact h

/-- What a visit comes to. It looks first whether the caller waits. -/
def Visits (g : G) (accept : KeepPolicy) (depth : Nat) (frames : List (Node × List Node)) (n : Node)
    (s : Search) (r : Except EndCause Search) : Prop :=
  (∃ cause life, s.life.poll = (some cause, life) ∧ r = .error cause) ∨
    ∃ life, s.life.poll = (none, life) ∧
      Yields g accept depth ⟨(n, succs g n) :: frames, s.mark n life⟩ frames r

section Callees

variable {room : Nat} {n : Node} {frames : List (Node × List Node)}
  (hvisit : ∀ {todo t s}, Standing g (pathOf frames ++ [n]) s.marked → t ∈ nodes g →
    t.id ∉ s.marked → Visits g accept depth ((n, todo) :: frames) t s
      (visit g accept depth room (pathOf frames ++ [n]) t s))
include hvisit

/-- A callee is looked at in turns, if visits are made in turns. -/
theorem yields_lookAt {t : Node} {todo : List Node} {s : Search} (ht : t ∈ nodes g)
    (hstand : Standing g (pathOf frames ++ [n]) s.marked) :
    Yields g accept depth ⟨(n, t :: todo) :: frames, s⟩ ((n, todo) :: frames)
      (lookAt g accept depth room (pathOf frames ++ [n]) s t) := by
  unfold lookAt
  -- A callee without a mark is visited, and one with a mark is only asked whether it is kept.
  by_cases hmarked : t.id ∉ s.marked
  · rw [if_pos hmarked]
    have hcallee : Visits g accept depth ((n, todo) :: frames) t s
        (visit g accept depth room (pathOf frames ++ [n]) t s) := hvisit hstand ht hmarked
    rcases hcallee with ⟨cause, life, hpoll, hr⟩ | ⟨life, hpoll, hr⟩
    · rw [hr]
      exact ⟨_, .refl, .intro hmarked hpoll⟩
    · exact hr.after (.single (.enter hmarked hpoll))
  · rw [if_neg hmarked]
    by_cases hkept : t.id ∈ s.keep
    · rw [if_pos hkept]
      exact ReflTransGen.single (.join (not_not.1 hmarked) hkept)
    · rw [if_neg hkept]
      exact ReflTransGen.single (.pass (not_not.1 hmarked) hkept)

/-- The callees of a node are looked at in turns, if visits are made in turns. -/
theorem yields_callees : ∀ (todo : List Node) {s : Search}, (∀ t ∈ todo, t ∈ nodes g) →
    Standing g (pathOf frames ++ [n]) s.marked →
    Yields g accept depth ⟨(n, todo) :: frames, s⟩ ((n, []) :: frames)
      (todo.foldlM (lookAt g accept depth room (pathOf frames ++ [n])) s) := by
  intro todo
  induction todo with
  | nil => exact fun _ _ => ReflTransGen.refl
  | cons t rest ih =>
      intro s hnodes hstand
      rw [List.foldlM_cons]
      refine (yields_lookAt hvisit (hnodes t List.mem_cons_self) hstand).bind fun s₁ hturns => ?_
      -- However the callee was dealt with, the path stands as it did.
      exact ih (fun k hk => hnodes k (List.mem_cons_of_mem t hk))
        (hstand.mono fun i hi => marked_of_turns hturns hi)

end Callees

/-- A visit is a sequence of turns that ends with the node left, or is cut short. The
    induction is on the room. Room and path together are no less than the nodes of the
    graph, so with no room left there would be no node to enter. -/
theorem visits_visit (hg : Lawful g) : ∀ (room : Nat) {frames : List (Node × List Node)} {n : Node}
    {s : Search}, Standing g (pathOf frames) s.marked → n ∈ nodes g → n.id ∉ s.marked →
    (nodes g).length ≤ room + frames.length →
    Visits g accept depth frames n s (visit g accept depth room (pathOf frames) n s) := by
  intro room
  induction room with
  | zero =>
      intro frames n s hstand hn hnew hroom
      -- The path would have to be longer than there are nodes.
      have hlt := hstand.length_lt hn hnew
      rw [length_pathOf] at hlt
      omega
  | succ room ih =>
      intro frames n s hstand hn hnew hroom
      unfold visit
      rcases hpoll : s.life.poll with ⟨cause, life⟩
      cases cause with
      | some cause => exact Or.inl ⟨cause, life, hpoll, rfl⟩
      | none =>
          refine Or.inr ⟨life, hpoll, ?_⟩
          -- A callee has less room but a longer path.
          have hvisit : ∀ {todo t s}, Standing g (pathOf frames ++ [n]) s.marked → t ∈ nodes g →
              t.id ∉ s.marked → Visits g accept depth ((n, todo) :: frames) t s
                (visit g accept depth room (pathOf frames ++ [n]) t s) := by
            intro todo t s₂ hstand₂ ht hnew₂
            rw [← pathOf_cons n todo] at hstand₂ ⊢
            refine ih hstand₂ ht hnew₂ ?_
            rw [List.length_cons]
            omega
          have hcallees := yields_callees hvisit (succs g n) (s := s.mark n life)
            (fun t ht => (hg.mem_succs.1 ht).1) (hstand.enter hn hnew)
          refine hcallees.bind fun s₁ _ => ?_
          cases haccept : accept n with
          | true => exact ReflTransGen.single (.keep haccept)
          | false => exact ReflTransGen.single (.leave haccept)

/-- The walk that has just entered the root. -/
def Walk.start (g : G) (root : Node) (life : Lifetime) : Walk :=
  ⟨[(root, succs g root)], Search.mark {} root life⟩

/-- What the traversal comes to, from the root entered to the root left or until it is cut
    short. -/
theorem visits_root (hg : Lawful g) (accept : KeepPolicy) (depth : Nat) {root : Node}
    (hroot : CallGraph.fakeRoot g = some root) (life : Lifetime) :
    Visits g accept depth [] root { life }
      (visit g accept depth (nodes g).length [] root { life }) := by
  have hin : root ∈ nodes g := by
    rw [hg.fakeRoot_eq, hg.node?_eq_some_iff] at hroot
    exact hroot.1
  have hstand : Standing g (pathOf []) ({ life } : Search).marked :=
    ⟨List.nodup_nil, fun n hn => absurd hn List.not_mem_nil⟩
  exact visits_visit hg _ hstand hin IdSet.not_mem_empty le_rfl

/-- The traversal is a sequence of turns, from the root entered to the root left. With
    this, what holds of a traversal can be proved of one turn. -/
theorem turns_findNodes (hg : Lawful g) {depth : Int} {life : Lifetime} {keep : IdSet} {root : Node}
    (hroot : CallGraph.fakeRoot g = some root)
    (hok : findNodes g accept depth life = .ok keep) :
    ∃ life' s, ReflTransGen (Turn g accept depth.toNat) (.start g root life') ⟨[], s⟩ ∧
      s.keep = keep := by
  unfold findNodes at hok
  split at hok
  · exact absurd hok (by simp)
  · rw [hroot] at hok
    simp only at hok
    split at hok
    · next s hvisit =>
      -- The visit of the root was not cut short, so it was made in turns.
      rcases visits_root hg accept depth.toNat hroot life with ⟨_, _, _, hr⟩ | ⟨life', _, hr⟩
      · exact absurd (hvisit.symm.trans hr) (by simp)
      · rw [hvisit] at hr
        exact ⟨life', s, hr, Except.ok.inj hok⟩
    · exact absurd hok (by simp)

end Prune

end CallAtlas
