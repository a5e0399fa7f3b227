import CallAtlas.Graph.Reach
import CallAtlas.Proofs.Lawful
import Mathlib.Data.List.Perm.Subperm
import Mathlib.Logic.Relation

/-!
# Reachable Nodes

The walk over a graph looks at no more nodes than the graph has, and the number of
steps it is given is that many. This module shows that these steps are enough: what
the walk has met in the end is what paths of calls lead to.

The walk is correct at every moment in the same sense, stated as `Exploring`. Whatever
was met is led to, and of a node that was met either the callees were met as well, or
the node is still on the stack. While the callees of a node are met one after the
other this holds only of those already met, so the invariant has the rest of the list
as a parameter.

A node is put on the stack when its number is met for the first time. So there are as
many numbers met as there were nodes taken off the stack and nodes still on it, and at
the end of the steps nothing can be left there.

## Main definitions

* `CallGraph.LeadsTo`: A path of calls leads from one node to another.
* `CallGraph.Exploring`: What a walk has met and what it has still to do.
* `CallGraph.Frontier.start`: A walk that has met its roots.

## Theorems

* `CallGraph.Exploring.meet`, `CallGraph.Exploring.pop`: The steps of a walk.
* `CallGraph.Exploring.mem_explore`: A walk meets what its roots lead to.
* `CallGraph.Lawful.mem_reachable`: The reachable nodes are those that paths lead to.
-/

namespace CallAtlas

namespace CallGraph

variable {G : Type} [CallGraph G] {g : G} {roots todo : List Node} {steps : Nat} {f : Frontier}
  {n : Node}

/-- A path of calls leads from one node to another. -/
abbrev LeadsTo (g : G) : Node → Node → Prop :=
  Relation.ReflTransGen fun a b => b ∈ succs g a

theorem Lawful.mem_of_leadsTo (hg : Lawful g) {a b : Node} (ha : a ∈ nodes g)
    (h : LeadsTo g a b) : b ∈ nodes g := by
  induction h with
  | refl => exact ha
  | tail _ hbc _ => exact (hg.mem_succs.1 hbc).1

theorem Frontier.meet_of_seen (h : n.id ∈ f.seen) : f.meet n = f := if_pos h

theorem Frontier.meet_of_not_seen (h : n.id ∉ f.seen) :
    f.meet n = { seen := f.seen.insert n.id, stack := n :: f.stack } := if_neg h

/-- A walk from some roots, with some nodes to be met at once and `steps` more nodes to
    be looked at. What was met is reached from a root (`sound`), and a node that was met
    is waiting on the stack or its callees were met too (`closed`). The steps are enough
    for the stack and for the nodes that were not met yet (`enough`), so the bound is
    never what ends a walk. -/
structure Exploring (g : G) (roots todo : List Node) (steps : Nat) (f : Frontier) : Prop where
  rooted : ∀ a ∈ roots, a ∈ nodes g
  met : ∀ n ∈ f.stack, n ∈ nodes g ∧ n.id ∈ f.seen
  sound : ∀ i ∈ f.seen, ∃ n, n ∈ nodes g ∧ n.id = i ∧ ∃ a ∈ roots, LeadsTo g a n
  due : ∀ n ∈ todo, n ∈ nodes g ∧ ∃ a ∈ roots, LeadsTo g a n
  started : ∀ a ∈ roots, a.id ∈ f.seen ∨ a ∈ todo
  closed : ∀ n ∈ nodes g, n.id ∈ f.seen →
    n ∈ f.stack ∨ ∀ m ∈ succs g n, m.id ∈ f.seen ∨ m ∈ todo
  enough : (nodes g).length + f.stack.length ≤ steps + f.seen.size

/-- Meeting a node that is due. Either its number was met before and nothing happens, or
    it goes on the stack and is counted among those that were met. -/
theorem Exploring.meet (hg : Lawful g) (h : Exploring g roots (n :: todo) steps f) :
    Exploring g roots todo steps (f.meet n) := by
  have hn := h.due n List.mem_cons_self
  have hdue : ∀ m ∈ todo, m ∈ nodes g ∧ ∃ a ∈ roots, LeadsTo g a m := fun m hm =>
    h.due m (List.mem_cons_of_mem n hm)
  by_cases hseen : n.id ∈ f.seen
  · rw [Frontier.meet_of_seen hseen]
    -- Nothing happens, and the node is due no longer because its number was met before.
    have hover : ∀ m : Node, m.id ∈ f.seen ∨ m ∈ n :: todo → m.id ∈ f.seen ∨ m ∈ todo := by
      intro m hm
      rcases hm with hm | hm
      · exact Or.inl hm
      · rcases List.mem_cons.1 hm with rfl | hm
        · exact Or.inl hseen
        · exact Or.inr hm
    refine ⟨h.rooted, h.met, h.sound, hdue, fun a ha => hover a (h.started a ha), ?_, h.enough⟩
    intro m hm hmseen
    exact (h.closed m hm hmseen).imp_right fun hall k hk => hover k (hall k hk)
  · rw [Frontier.meet_of_not_seen hseen]
    have hover : ∀ m : Node, m.id ∈ f.seen ∨ m ∈ n :: todo →
        m.id ∈ f.seen.insert n.id ∨ m ∈ todo := by
      intro m hm
      rcases hm with hm | hm
      · exact Or.inl (IdSet.mem_insert.2 (Or.inr hm))
      · rcases List.mem_cons.1 hm with rfl | hm
        · exact Or.inl (IdSet.mem_insert.2 (Or.inl rfl))
        · exact Or.inr hm
    refine ⟨h.rooted, ?_, ?_, hdue, fun a ha => hover a (h.started a ha), ?_, ?_⟩
    · intro m hm
      rcases List.mem_cons.1 hm with rfl | hm
      · exact ⟨hn.1, IdSet.mem_insert.2 (Or.inl rfl)⟩
      · exact ⟨(h.met m hm).1, IdSet.mem_insert.2 (Or.inr (h.met m hm).2)⟩
    · intro i hi
      rcases IdSet.mem_insert.1 hi with rfl | hi
      · exact ⟨n, hn.1, rfl, hn.2⟩
      · exact h.sound i hi
    · intro m hm hmseen
      rcases IdSet.mem_insert.1 hmseen with hid | hmseen
      · rw [hg.eq_of_id hm hn.1 hid]
        exact Or.inl List.mem_cons_self
      · refine (h.closed m hm hmseen).imp (List.mem_cons_of_mem n) ?_
        exact fun hall k hk => hover k (hall k hk)
    · -- The stack and the set both grow by one, so no further step is needed.
      have henough := h.enough
      have hsize := IdSet.size_insert hseen
      simp only [List.length_cons]
      omega

theorem Exploring.meetAll (hg : Lawful g) (h : Exploring g roots todo steps f) :
    Exploring g roots [] steps (todo.foldl Frontier.meet f) := by
  induction todo generalizing f with
  | nil => exact h
  | cons n rest ih => exact ih (h.meet hg)

/-- A node that is taken off the stack leaves its callees to be met. Its roots lead to
    them through it, and one step is spent for one node that waits no longer. -/
theorem Exploring.pop (hg : Lawful g) {rest : List Node}
    (h : Exploring g roots [] (steps + 1) { f with stack := n :: rest }) :
    Exploring g roots (succs g n) steps { f with stack := rest } := by
  have hn := h.met n List.mem_cons_self
  have hled : ∃ a ∈ roots, LeadsTo g a n := by
    rcases h.sound n.id hn.2 with ⟨m, hm, hid, hled⟩
    rw [← hg.eq_of_id hm hn.1 hid]
    exact hled
  refine ⟨h.rooted, fun m hm => h.met m (List.mem_cons_of_mem n hm), h.sound, ?_, ?_, ?_, ?_⟩
  · intro m hm
    rcases hled with ⟨a, ha, hpath⟩
    exact ⟨(hg.mem_succs.1 hm).1, a, ha, hpath.tail hm⟩
  · intro a ha
    exact (h.started a ha).imp_right fun hnil => absurd hnil List.not_mem_nil
  · -- The node itself leaves the stack, and its callees are due instead.
    intro m hm hmseen
    rcases h.closed m hm hmseen with hstack | hall
    · rcases List.mem_cons.1 hstack with rfl | hstack
      · exact Or.inr fun k hk => Or.inr hk
      · exact Or.inl hstack
    · refine Or.inr fun k hk => (hall k hk).imp_right fun hnil => absurd hnil List.not_mem_nil
  · -- One step is spent, and one node fewer is waiting.
    have henough := h.enough
    simp only [List.length_cons] at henough ⊢
    omega

/-- Numbers of nodes are no more than the graph has nodes. -/
theorem size_le_length_nodes {s : IdSet} (hs : ∀ i ∈ s, ∃ n ∈ nodes g, n.id = i) :
    s.size ≤ (nodes g).length := by
  have hsub : s.toList ⊆ (nodes g).map fun n => n.id := fun i hi => List.mem_map.2 (hs i hi)
  have hle := (s.nodup_toList.subperm hsub).length_le
  rw [List.length_map] at hle
  exact hle

/-- No more numbers are met than the graph has nodes. -/
theorem Exploring.size_seen_le (h : Exploring g roots todo steps f) :
    f.seen.size ≤ (nodes g).length := by
  refine size_le_length_nodes fun i hi => ?_
  rcases h.sound i hi with ⟨n, hn, hid, _⟩
  exact ⟨n, hn, hid⟩

/-- A walk whose stack is empty has met what its roots lead to. The numbers that were met
    are closed under calls then, and they contain the roots, so the induction is on the
    path from a root. -/
theorem Exploring.mem_seen (hg : Lawful g) (h : Exploring g roots [] steps f) (hf : f.stack = [])
    {i : Int} : i ∈ f.seen ↔ ∃ n, n.id = i ∧ ∃ a ∈ roots, LeadsTo g a n := by
  constructor
  · intro hi
    rcases h.sound i hi with ⟨n, _, hid, hled⟩
    exact ⟨n, hid, hled⟩
  · rintro ⟨n, rfl, a, ha, hpath⟩
    -- Along a path the nodes are met one after the other.
    induction hpath with
    | refl => exact (h.started a ha).resolve_right List.not_mem_nil
    | @tail b c hab hbc ih =>
        have hb := hg.mem_of_leadsTo (h.rooted a ha) hab
        rcases h.closed b hb ih with hstack | hall
        · rw [hf] at hstack
          exact absurd hstack List.not_mem_nil
        · exact (hall c hbc).resolve_right List.not_mem_nil

/-- A walk meets what its roots lead to. The induction is on the steps that are left.
    When they are used up, no number was left to be met, so the stack is empty then as
    well. -/
theorem Exploring.mem_explore (hg : Lawful g) {i : Int} : ∀ {steps f},
    Exploring g roots [] steps f →
      (i ∈ explore g steps f ↔ ∃ n, n.id = i ∧ ∃ a ∈ roots, LeadsTo g a n) := by
  intro steps
  induction steps with
  | zero =>
      intro f h
      have henough := h.enough
      have hsize := h.size_seen_le
      -- The steps are used up, but then everything was met, and nothing waits.
      have hempty : f.stack = [] := List.length_eq_zero_iff.1 (by omega)
      exact h.mem_seen hg hempty
  | succ steps ih =>
      intro f h
      rcases f with ⟨seen, stack⟩
      unfold explore
      cases stack with
      | nil => exact h.mem_seen hg rfl
      | cons n rest => exact ih ((h.pop hg).meetAll hg)

/-- The walk before any node is taken off the stack: the roots in the graph were met. -/
def Frontier.start (g : G) (starts : List (Option Node)) : Frontier :=
  ((starts.filterMap id).filter (contains g)).foldl Frontier.meet {}

/-- A walk starts with its roots being due. Those that are no nodes of the graph were dropped. -/
theorem Lawful.exploring_start (hg : Lawful g) (starts : List (Option Node)) :
    Exploring g ((starts.filterMap id).filter (contains g)) [] (nodes g).length
      (.start g starts) := by
  have hroot : ∀ a ∈ (starts.filterMap id).filter (contains g), a ∈ nodes g := fun a ha =>
    hg.contains_iff.1 (List.mem_filter.1 ha).2
  have hstart : Exploring g ((starts.filterMap id).filter (contains g))
      ((starts.filterMap id).filter (contains g)) (nodes g).length {} :=
    ⟨hroot, by simp, by simp, fun a ha => ⟨hroot a ha, a, ha, .refl⟩, fun a ha => Or.inr ha,
      by simp, by simp⟩
  exact hstart.meetAll hg

/-- The reachable nodes are those to which paths of calls lead from the roots. Roots
    that are missing or that belong to another graph lead nowhere. -/
theorem Lawful.mem_reachable (hg : Lawful g) {starts : List (Option Node)} {i : Int} :
    i ∈ reachable g starts ↔
      ∃ n, n.id = i ∧ ∃ a, some a ∈ starts ∧ a ∈ nodes g ∧ LeadsTo g a n := by
  have hroots : ∀ {a}, a ∈ (starts.filterMap id).filter (contains g) ↔
      some a ∈ starts ∧ a ∈ nodes g := by
    intro a
    rw [List.mem_filter, List.mem_filterMap, hg.contains_iff]
    simp
  rw [reachable, ← Frontier.start, (hg.exploring_start starts).mem_explore hg]
  refine exists_congr fun n => and_congr_right fun _ => exists_congr fun a => ?_
  rw [hroots, and_assoc]

end CallGraph

end CallAtlas
