import CallAtlas.Proofs.Prune.Views
import CallAtlas.Proofs.Reach
import Mathlib.Logic.Function.Iterate

/-!
# The Search for Reachable Nodes

The search goes on until its stack is empty. Written as a function it is given a number
of steps instead, and stops when these are used up, whatever is left on the stack. This
module says that nothing ever is: the stack is empty after as many nodes were taken off
as are reachable, and before that it is not. So the steps are a bound that is never
felt, and what comes out is what the search without a bound would come to.

Each number that is met puts one node on the stack, so at any time there are as many
numbers met as nodes taken off and nodes still there. This is the only thing to count.
The rest is the invariant of the walk, `Exploring`.

The roots are whatever a caller has at hand. Some may be missing, removed, hidden or of
another graph, and some may be given twice. What is found is a set of numbers that the
roots determine as a set.

## Main definitions

* `CallGraph.Frontier.next`: The walk after one more node is taken off the stack.
* `CallGraph.Searches`: What a search from given roots comes to.

## Theorems

* `CallGraph.explore_eq_iterate`: Exploring is taking off one node after the other.
* `CallGraph.Exploring.exists_halt`: The stack runs empty, after as many nodes as are met.
* `CallGraph.reachable_searches`: Reachability in a graph and in a view of it.
-/

namespace CallAtlas

namespace CallGraph

variable {G : Type} [CallGraph G] {g : G} {roots : List Node} {starts : List (Option Node)}
  {f : Frontier}

/-! ## One node after the other -/

/-- The walk after one more node is taken off the stack, if there is one. -/
def Frontier.next (g : G) (f : Frontier) : Frontier :=
  match f.stack with
  | [] => f
  | n :: rest => (succs g n).foldl Frontier.meet { f with stack := rest }

theorem Frontier.next_of_done (hf : f.stack = []) : f.next g = f := by
  rw [next, hf]

theorem Frontier.next_cons (seen : IdSet) (n : Node) (rest : List Node) :
    next g ⟨seen, n :: rest⟩ = (succs g n).foldl Frontier.meet ⟨seen, rest⟩ := rfl

/-- Exploring is taking off one node after the other. The numbers met are read off at
    the end, and steps that are left over change nothing. -/
theorem explore_eq_iterate (g : G) (steps : Nat) (f : Frontier) :
    explore g steps f = ((Frontier.next g)^[steps] f).seen := by
  induction steps generalizing f with
  | zero => rfl
  | succ steps ih =>
      rw [Function.iterate_succ_apply, explore, ← ih, Frontier.next]
      rcases f with ⟨seen, stack⟩
      cases stack with
      | nil => cases steps <;> rfl
      | cons n rest => rfl

theorem reachable_eq_iterate (g : G) (starts : List (Option Node)) :
    reachable g starts = ((Frontier.next g)^[(nodes g).length] (.start g starts)).seen :=
  explore_eq_iterate g _ _

/-! ## Counting -/

/-- Each number that is met puts one node on the stack. -/
theorem size_seen_meetAll (ns : List Node) (f : Frontier) :
    (ns.foldl Frontier.meet f).seen.size + f.stack.length =
      f.seen.size + (ns.foldl Frontier.meet f).stack.length := by
  induction ns generalizing f with
  | nil => rfl
  | cons n rest ih =>
      have hrest := ih (f.meet n)
      -- Meeting one node adds to both sides or to neither.
      have hfirst : (f.meet n).seen.size + f.stack.length =
          f.seen.size + (f.meet n).stack.length := by
        by_cases hseen : n.id ∈ f.seen
        · rw [Frontier.meet_of_seen hseen]
        · rw [Frontier.meet_of_not_seen hseen, IdSet.size_insert hseen, List.length_cons]
          omega
      rw [List.foldl_cons]
      omega

/-- The stack runs empty. Every node on it is taken off before, and so is one for each
    number that is met on the way. So the number of steps can be read off the numbers
    that were met, and the bound on the steps is not part of the result. -/
theorem Exploring.exists_halt (hg : Lawful g) : ∀ {steps f}, Exploring g roots [] steps f →
    ∃ k ≤ steps, ((Frontier.next g)^[k] f).stack = [] ∧
      (∀ j < k, ((Frontier.next g)^[j] f).stack ≠ []) ∧
      ((Frontier.next g)^[k] f).seen.size + f.stack.length = f.seen.size + k := by
  intro steps
  induction steps with
  | zero =>
      intro f h
      have henough := h.enough
      have hsize := h.size_seen_le
      have hempty : f.stack = [] := List.length_eq_zero_iff.1 (by omega)
      exact ⟨0, le_rfl, hempty, fun j hj => absurd hj (Nat.not_lt_zero j), by simp [hempty]⟩
  | succ steps ih =>
      intro f h
      rcases f with ⟨seen, stack⟩
      cases stack with
      | nil => exact ⟨0, Nat.zero_le _, rfl, fun j hj => absurd hj (Nat.not_lt_zero j), rfl⟩
      | cons n rest =>
          have hpop : Exploring g roots (succs g n) steps ⟨seen, rest⟩ :=
            h.pop (f := ⟨seen, rest⟩) hg
          rcases ih (hpop.meetAll hg) with ⟨k, hk, hempty, hbefore, hcount⟩
          -- What is met in this step is counted on the stack, and was not there before.
          have hmet := size_seen_meetAll (succs g n) ⟨seen, rest⟩
          refine ⟨k + 1, by omega, hempty, ?_, ?_⟩
          · intro j hj
            cases j with
            | zero => exact List.cons_ne_nil n rest
            | succ j => exact hbefore j (by omega)
          · rw [Function.iterate_succ_apply, Frontier.next_cons, List.length_cons]
            simp only at hmet ⊢
            omega

/-! ## What a search comes to -/

/-- What a search from given roots comes to. -/
structure Searches (g : G) (starts : List (Option Node)) : Prop where
  /-- The stack is empty after as many nodes were taken off as are reachable, and not before. -/
  halts : ((Frontier.next g)^[(reachable g starts).size] (.start g starts)).stack = [] ∧
    ((Frontier.next g)^[(reachable g starts).size] (.start g starts)).seen = reachable g starts ∧
    ∀ j < (reachable g starts).size, ((Frontier.next g)^[j] (.start g starts)).stack ≠ []
  /-- A number is found if it is that of a node to which a path leads from a root in the graph. -/
  mem_iff : ∀ i, i ∈ reachable g starts ↔
    ∃ n, n.id = i ∧ ∃ a, some a ∈ starts ∧ contains g a ∧ LeadsTo g a n
  /-- What is found is in the graph. -/
  visible : ∀ i ∈ reachable g starts, ∃ n, contains g n ∧ n.id = i
  /-- Neither the order of the roots nor their repetition matters. -/
  congr : ∀ starts', (∀ a, a ∈ starts ↔ a ∈ starts') → reachable g starts = reachable g starts'

/-- Every lawful graph is searched like this. A view of a lawful graph is lawful, so the
    same applies to it. -/
theorem Lawful.searches (hg : Lawful g) (starts : List (Option Node)) : Searches g starts := by
  have hmem : ∀ i, i ∈ reachable g starts ↔
      ∃ n, n.id = i ∧ ∃ a, some a ∈ starts ∧ contains g a ∧ LeadsTo g a n := by
    intro i
    rw [hg.mem_reachable]
    simp only [hg.contains_iff]
  refine ⟨?_, hmem, ?_, ?_⟩
  · rcases (hg.exploring_start starts).exists_halt hg with ⟨k, hk, hempty, hbefore, hcount⟩
    have hstart : (Frontier.start g starts).seen.size = (Frontier.start g starts).stack.length := by
      have hmet := size_seen_meetAll ((starts.filterMap id).filter (contains g)) {}
      rw [← Frontier.start] at hmet
      exact hmet.trans (Nat.zero_add _)
    -- The steps that were not needed do nothing.
    have hseen : ((Frontier.next g)^[k] (.start g starts)).seen = reachable g starts := by
      have hsteps : (nodes g).length = (nodes g).length - k + k := by omega
      rw [reachable_eq_iterate, hsteps, Function.iterate_add_apply,
        Function.iterate_fixed (Frontier.next_of_done hempty)]
    have hsize : (reachable g starts).size = k := by
      rw [← hseen]
      omega
    rw [hsize]
    exact ⟨hempty, hseen, hbefore⟩
  · intro i hi
    rcases (hmem i).1 hi with ⟨n, hid, a, _, ha, hled⟩
    exact ⟨n, hg.contains_iff.2 (hg.mem_of_leadsTo (hg.contains_iff.1 ha) hled), hid⟩
  · intro starts' hsame
    refine IdSet.ext fun i => ?_
    rw [hg.mem_reachable, hg.mem_reachable]
    simp only [hsame]

/-- The search for reachable nodes, in a graph and in any view of it, comes to an end
    and finds what paths of calls lead to. It ends because the stack is empty and not
    because a bound on the steps was reached, and the bound could be anything larger. -/
theorem reachable_searches {g : Graph} (hg : g.Obtainable) (filter : Filter)
    (starts : List (Option Node)) : Searches g starts ∧ Searches (View.mk g filter) starts := by
  have hlawful : Lawful g := hg.wellFormed.lawful
  have hview : Lawful (View.mk g filter) := View.lawful hlawful
  exact ⟨hlawful.searches starts, hview.searches starts⟩

/-- The search starts from B, which is given twice, and passes over a root that is missing and
    one of another graph. The view has no C, and A calls only itself there. -/
theorem reachable_searches_letters :
    let starts := [none, some { View.lettered 4 "C" with serial := 7 },
      some (View.lettered 3 "B"), some (View.lettered 3 "B")]
    let filter : Filter :=
      { keep := IdSet.ofList [2, 3, 9], hidden := Table.empty.insert 2 (IdSet.ofList [3]) }
    (reachable View.letters starts = IdSet.ofList [2, 3, 4] ∧ Searches View.letters starts) ∧
      reachable (View.mk View.letters filter) starts = IdSet.ofList [2, 3] ∧
      Searches (View.mk View.letters filter) starts := by
  intro starts filter
  have hboth := reachable_searches (show View.letters.Obtainable from ⟨0, _, rfl⟩) filter starts
  exact ⟨⟨by decide +kernel, hboth.1⟩, by decide +kernel, hboth.2⟩

end CallGraph

end CallAtlas
