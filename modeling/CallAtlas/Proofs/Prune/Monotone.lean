import CallAtlas.Proofs.Prune.Turns

/-!
# Pruning is Monotone

What the traversal keeps has an effect on what it keeps later, because meeting a kept
node makes the whole path be kept. So a policy that accepts more, or an extension that
goes further, changes the traversal from the first node on where it makes a difference,
and in a graph with cycles what is kept is no function of what is accepted and reached.
Still nothing is lost: more is kept.

The reason is that the way of the traversal does not depend on what is kept. Which
callee is entered is decided by the marks, and marks are made by entering. Two
traversals of one graph therefore go in step, whatever their policies, and at each step
the one that accepts more has kept no less.

Nothing is assumed of the graph. It need not even be lawful.

## Main definitions

* `Prune.Ball.Below`, `Prune.Below`: Two walks or two searches in step, of which the second
  has kept no less.

## Theorems

* `Prune.Ball.Below.mem_spread`: An extension that goes further keeps no less.
* `Prune.Below.keepPath`, `Prune.Below.extend`: Keeping a path and extending stay in step.
* `Prune.Below.visit`: Visits stay in step.
* `Prune.findNodes_mono`: A policy that accepts more and a greater depth keep no less.
-/

namespace CallAtlas

namespace Prune

open CallGraph (succs)

variable {G : Type} [CallGraph G] {g : G} {accept accept' : KeepPolicy} {depth depth' : Nat}
  {n : Node} {path : List Node}

/-! ## Extensions in step -/

/-- Two walks outward have met the same nodes, and the second has kept no less. -/
structure Ball.Below (b b' : Ball) : Prop where
  seen : b.seen = b'.seen
  round : b.round = b'.round
  keep : ∀ i ∈ b.keep, i ∈ b'.keep

/-- Meeting a node goes in step, since whether it is new depends on what has been met only. -/
theorem Ball.Below.meet {b b' : Ball} (h : b.Below b') (n : Node) :
    (b.meet n).Below (b'.meet n) := by
  have hkeep : ∀ i ∈ (b.meet n).keep, i ∈ (b'.meet n).keep := by
    intro i hi
    rw [keep_meet, IdSet.mem_insert] at hi ⊢
    exact hi.imp_right (h.keep i)
  refine ⟨?_, ?_, hkeep⟩
  · simp only [Ball.meet, h.seen]
    split <;> rfl
  · simp only [Ball.meet, h.seen, h.round]
    split <;> rfl

theorem Ball.Below.meetAll {b b' : Ball} (h : b.Below b') (ns : List Node) :
    (ns.foldl Ball.meet b).Below (ns.foldl Ball.meet b') := by
  induction ns generalizing b b' with
  | nil => exact h
  | cons n rest ih => exact ih (h.meet n)

/-- A round goes in step. -/
theorem Ball.Below.next {b b' : Ball} (h : b.Below b') : (b.next g).Below (b'.next g) := by
  have hstart : Ball.Below { b with round := [] } { b' with round := [] } := ⟨h.seen, rfl, h.keep⟩
  rw [Ball.next, Ball.next, h.round]
  exact hstart.meetAll _

/-- An extension that goes further keeps no less. The rounds go in step as long as both
    have some left, and after that the longer one only adds. -/
theorem Ball.Below.mem_spread {b b' : Ball} (h : b.Below b') (hdepth : depth ≤ depth') {i : Int}
    (hi : i ∈ spread g depth b) : i ∈ spread g depth' b' := by
  induction depth generalizing depth' b b' with
  | zero => exact mem_spread_of_mem (h.keep i hi)
  | succ depth ih =>
      rcases Nat.exists_eq_succ_of_ne_zero (Nat.ne_of_gt (Nat.lt_of_lt_of_le depth.succ_pos hdepth))
        with ⟨more, rfl⟩
      rw [spread_succ] at hi ⊢
      exact ih h.next (Nat.le_of_succ_le_succ hdepth) hi

/-! ## Searches in step -/

/-- Two searches have visited the same nodes, and the second has kept no less. -/
structure Below (s s' : Search) : Prop where
  marked : s.marked = s'.marked
  keep : ∀ i ∈ s.keep, i ∈ s'.keep

namespace Below

variable {s s' t t' : Search}

/-- Marking a node goes in step, whatever is left of the lifetimes. -/
theorem mark (h : Below s s') (n : Node) (life life' : Lifetime) :
    Below (s.mark n life) (s'.mark n life') :=
  ⟨congrArg (IdSet.insert · n.id) h.marked, h.keep⟩

theorem keepPath (h : Below s s') (path : List Node) :
    Below (s.keepPath path) (s'.keepPath path) := by
  refine ⟨h.marked, fun i hi => ?_⟩
  rw [Search.keepPath, IdSet.mem_insertAll] at hi ⊢
  exact hi.imp_right (h.keep i)

/-- The second search may keep a path alone. -/
theorem keepPath_right (h : Below s s') (path : List Node) : Below s (s'.keepPath path) :=
  ⟨h.marked, fun i hi => IdSet.mem_insertAll.2 (Or.inr (h.keep i hi))⟩

theorem extend (h : Below s s') (hdepth : depth ≤ depth') (n : Node) :
    Below (s.extend g depth n) (s'.extend g depth' n) := by
  have hball : (ballAt s.keep n).Below (ballAt s'.keep n) := ⟨rfl, rfl, h.keep⟩
  exact ⟨h.marked, fun i hi => hball.mem_spread hdepth hi⟩

/-- The second search may extend alone. -/
theorem extend_right (h : Below s s') (n : Node) : Below s (s'.extend g depth' n) :=
  ⟨h.marked, fun i hi => mem_spread_of_mem (h.keep i hi)⟩

end Below

/-! ## Visits in step -/

/-- A callee is looked at in step, if visits go in step. Both searches have marked the
    same nodes, so they visit it or both do not. Only then it matters what they have
    kept. -/
theorem Below.lookAt {room : Nat} (hvisit : ∀ {t s s' u u'}, Below s s' →
      Prune.visit g accept depth room path t s = .ok u →
      Prune.visit g accept' depth' room path t s' = .ok u' → Below u u')
    {t : Node} {s s' u u' : Search} (h : Below s s')
    (hs : Prune.lookAt g accept depth room path s t = .ok u)
    (hs' : Prune.lookAt g accept' depth' room path s' t = .ok u') : Below u u' := by
  unfold Prune.lookAt at hs hs'
  rw [← h.marked] at hs'
  by_cases hmarked : t.id ∉ s.marked
  · rw [if_pos hmarked] at hs hs'
    exact hvisit h hs hs'
  · rw [if_neg hmarked] at hs hs'
    by_cases hkept : t.id ∈ s.keep
    · rw [if_pos hkept] at hs
      rw [if_pos (h.keep _ hkept)] at hs'
      rw [← Except.ok.inj hs, ← Except.ok.inj hs']
      exact h.keepPath path
    · rw [if_neg hkept] at hs
      rw [← Except.ok.inj hs]
      -- The second search may have kept the callee, and then it alone keeps the path.
      by_cases hkept' : t.id ∈ s'.keep
      · rw [if_pos hkept'] at hs'
        rw [← Except.ok.inj hs']
        exact h.keepPath_right path
      · rw [if_neg hkept'] at hs'
        rw [← Except.ok.inj hs']
        exact h

/-- Callees are looked at in step, one after the other. -/
theorem Below.callees {room : Nat} (hvisit : ∀ {t s s' u u'}, Below s s' →
      Prune.visit g accept depth room path t s = .ok u →
      Prune.visit g accept' depth' room path t s' = .ok u' → Below u u') :
    ∀ (todo : List Node) {s s' u u' : Search}, Below s s' →
      todo.foldlM (Prune.lookAt g accept depth room path) s = .ok u →
      todo.foldlM (Prune.lookAt g accept' depth' room path) s' = .ok u' → Below u u' := by
  intro todo
  induction todo with
  | nil =>
      intro s s' u u' h hs hs'
      rw [List.foldlM_nil] at hs hs'
      rw [← Except.ok.inj hs, ← Except.ok.inj hs']
      exact h
  | cons t rest ih =>
      intro s s' u u' h hs hs'
      -- The first callee is looked at by both searches, and from there on they look at the
      -- others.
      rw [List.foldlM_cons, except_bind_eq_ok_iff] at hs hs'
      rcases hs with ⟨v, hfirst, hrest⟩
      rcases hs' with ⟨v', hfirst', hrest'⟩
      exact ih (h.lookAt hvisit hfirst hfirst') hrest hrest'

section Visits

variable (haccept : ∀ n, accept n = true → accept' n = true) (hdepth : depth ≤ depth')
include haccept hdepth

/-- A node is left in step: what is accepted by the first policy is accepted by the second. -/
theorem Below.leave {s s' t t' : Search} (h : Below s s')
    (hs : (if accept n then pure (((s.ask n).keepPath path).extend g depth n)
      else pure (s.ask n) : Except EndCause Search) = .ok t)
    (hs' : (if accept' n then pure (((s'.ask n).keepPath path).extend g depth' n)
      else pure (s'.ask n) : Except EndCause Search) = .ok t') : Below t t' := by
  have hask : Below (s.ask n) (s'.ask n) := ⟨h.marked, h.keep⟩
  cases ha : accept n with
  | true =>
      rw [ha, if_pos rfl] at hs
      rw [haccept n ha, if_pos rfl] at hs'
      rw [← Except.ok.inj hs, ← Except.ok.inj hs']
      exact (hask.keepPath path).extend hdepth n
  | false =>
      rw [ha, if_neg Bool.false_ne_true] at hs
      rw [← Except.ok.inj hs]
      -- What only the second policy accepts adds to the second search alone.
      cases ha' : accept' n with
      | true =>
          rw [ha', if_pos rfl] at hs'
          rw [← Except.ok.inj hs']
          exact (hask.keepPath_right path).extend_right n
      | false =>
          rw [ha', if_neg Bool.false_ne_true] at hs'
          rw [← Except.ok.inj hs']
          exact hask

/-- Visits that come to an end go in step, however long their callers would have waited.
    The path of the traversal does not depend on what is accepted or kept, which is why
    the two searches can be compared node by node. -/
theorem Below.visit : ∀ (room : Nat) {path : List Node} {n : Node} {s s' t t' : Search},
    Below s s' → visit g accept depth room path n s = .ok t →
    Prune.visit g accept' depth' room path n s' = .ok t' → Below t t' := by
  intro room
  induction room with
  | zero =>
      intro path n s s' t t' h hs hs'
      rw [← Except.ok.inj hs, ← Except.ok.inj hs']
      exact h
  | succ room ih =>
      intro path n s s' t t' h hs hs'
      unfold Prune.visit at hs hs'
      rcases hpoll : s.life.poll with ⟨cause, life⟩
      rcases hpoll' : s'.life.poll with ⟨cause', life'⟩
      rw [hpoll] at hs
      rw [hpoll'] at hs'
      -- A visit that came to an end was not cut short at its first look.
      cases cause with
      | some cause => exact absurd hs (by simp)
      | none =>
          cases cause' with
          | some cause' => exact absurd hs' (by simp)
          | none =>
              simp only [except_bind_eq_ok_iff] at hs hs'
              rcases hs with ⟨u, hfold, hlast⟩
              rcases hs' with ⟨u', hfold', hlast'⟩
              have hmark : Below (s.mark n life) (s'.mark n life') := h.mark n life life'
              have hcallees : Below u u' := Below.callees ih (succs g n) hmark hfold hfold'
              exact hcallees.leave haccept hdepth hlast hlast'

end Visits

/-! ## The whole traversal -/

/-- Traversals that come to an end keep no less with a policy that accepts more and with a
    greater depth. -/
theorem mem_findNodes_of_mem (haccept : ∀ n, accept n = true → accept' n = true)
    {depth depth' : Int} (hdepth : depth ≤ depth') {life life' : Lifetime} {keep keep' : IdSet}
    (hok : findNodes g accept depth life = .ok keep)
    (hok' : findNodes g accept' depth' life' = .ok keep') {i : Int} (hi : i ∈ keep) :
    i ∈ keep' := by
  unfold findNodes at hok hok'
  split at hok
  · exact absurd hok (by simp)
  · rw [if_neg (by omega)] at hok'
    -- Without a root nothing is kept by either.
    cases hroot : CallGraph.fakeRoot g with
    | none =>
        rw [hroot] at hok
        rw [← Except.ok.inj hok] at hi
        exact absurd hi IdSet.not_mem_empty
    | some root =>
        rw [hroot] at hok hok'
        simp only at hok hok'
        split at hok
        · next s hs =>
          split at hok'
          · next s' hs' =>
            have hstart : Below { life } { life := life' } := ⟨rfl, fun i hi => hi⟩
            have hbelow := hstart.visit haccept (Int.toNat_le_toNat hdepth) _ hs hs'
            rw [← Except.ok.inj hok] at hi
            rw [← Except.ok.inj hok']
            exact hbelow.keep i hi
          · exact absurd hok' (by simp)
        · exact absurd hok (by simp)

/-- Whatever graph is traversed, a policy that accepts more and an extension that goes
    further keep no less. No law of the graph is needed, since both traversals ask it
    the same. -/
theorem findNodes_mono (g : G) (haccept : ∀ n, accept n = true → accept' n = true)
    {depth depth' : Int} (hdepth : 0 ≤ depth) (hle : depth ≤ depth') {life life' : Lifetime}
    (hlife : life.polls = none) (hlife' : life'.polls = none) :
    ∃ keep keep', findNodes g accept depth life = .ok keep ∧
      findNodes g accept' depth' life' = .ok keep' ∧ ∀ i ∈ keep, i ∈ keep' := by
  rcases connected_findNodes (r := g) accept hdepth hlife with ⟨keep, hok, _⟩
  rcases connected_findNodes (r := g) accept' (hdepth.trans hle) hlife' with ⟨keep', hok', _⟩
  exact ⟨keep, keep', hok, hok', fun i hi => mem_findNodes_of_mem haccept hle hok hok' hi⟩

/-- B calls A back. While A alone is accepted B is not kept, in the graph and in the view without
    C, because A is still on the path when B is left. -/
theorem findNodes_mono_letters :
    let accept : KeepPolicy := fun n => n.id = 2
    let accept' : KeepPolicy := fun n => n.id = 2 || n.id = 4
    let view : View := View.mk rootedLetters { keep := IdSet.ofList [0, 2, 3] }
    View.lettered 2 "A" ∈ succs view (View.lettered 3 "B") ∧
      findNodes rootedLetters accept 0 .unbounded = .ok (IdSet.ofList [0, 2]) ∧
      findNodes view accept 0 .unbounded = .ok (IdSet.ofList [0, 2]) ∧
      (∃ keep', findNodes rootedLetters accept' 1 .unbounded = .ok keep' ∧
        ∀ i ∈ IdSet.ofList [0, 2], i ∈ keep') ∧
      ∃ keep', findNodes view accept' 1 .unbounded = .ok keep' ∧
        ∀ i ∈ IdSet.ofList [0, 2], i ∈ keep' := by
  intro accept accept' view
  have hwhole : findNodes rootedLetters accept 0 .unbounded = .ok (IdSet.ofList [0, 2]) := by
    decide +kernel
  have hview : findNodes view accept 0 .unbounded = .ok (IdSet.ofList [0, 2]) := by decide +kernel
  have haccept : ∀ n, accept n = true → accept' n = true := by
    intro n hn
    simp only [accept', accept, decide_eq_true_eq, Bool.or_eq_true] at hn ⊢
    exact Or.inl hn
  have hdepth : (0 : Int) ≤ 0 := le_rfl
  have hle : (0 : Int) ≤ 1 := by decide
  have hlife : Lifetime.unbounded.polls = none := rfl
  -- The same two policies are compared on the graph and on the view.
  rcases findNodes_mono rootedLetters haccept hdepth hle hlife hlife with ⟨k, k', hk, hk', hsub⟩
  rcases findNodes_mono view haccept hdepth hle hlife hlife with ⟨l, l', hl, hl', hsub'⟩
  rw [hwhole, Except.ok.injEq] at hk
  rw [hview, Except.ok.injEq] at hl
  subst hk hl
  exact ⟨by decide +kernel, hwhole, hview, ⟨k', hk', hsub⟩, l', hl', hsub'⟩

end Prune

end CallAtlas
