import CallAtlas.Proofs.Prune.Ball
import CallAtlas.Proofs.Prune.Views
import Mathlib.Logic.Function.Iterate

/-!
# The Extension Is a Ball

`Within` bounds the calls that lead from one node to another, and none at all is within
every bound. So it cannot tell what an extension adds to what was kept before: the node
itself is added only if calls lead back to it. `Route` counts the calls. An extension adds
the ends of all routes of one call or more, up to its depth.

The depth may be any number, and the walk must not take that long. Each node that comes
into a round brings a number the walk had not met, and there are no more numbers than
nodes. So there is an empty round before the rounds outnumber the nodes, and all rounds
after it are empty too. A depth beyond that makes no difference, and an extension that
is as deep as the graph is large adds all that is reached by calls.

## Main definitions

* `Prune.Route`: A number of calls that lead from one node to another.
* `Prune.Extends`: What the extension of a node comes to.

## Theorems

* `Prune.within_iff`, `Prune.transGen_iff`: Routes beside the relations that do not count.
* `Prune.Ball.exists_halt`: The rounds run empty.
* `Prune.extend_exact`: The extension in a graph and in a view of it.
-/

namespace CallAtlas

namespace Prune

open CallGraph (Lawful edges nodes succs)
open Relation (TransGen)

variable {G : Type} [CallGraph G] {g : G} {n m : Node} {keep : IdSet} {depth : Nat} {b : Ball}

/-! ## Routes -/

/-- A number of calls that lead from one node to another. -/
inductive Route (g : G) : Nat → Node → Node → Prop
  | here (n : Node) : Route g 0 n n
  | call {calls : Nat} {n k m : Node} : (n, k) ∈ edges g → Route g calls k m →
      Route g (calls + 1) n m

theorem mem_edges_iff (hg : Lawful g) : (n, m) ∈ edges g ↔ m ∈ succs g n := by
  rw [hg.mem_edges, hg.mem_succs]
  exact and_iff_right_of_imp fun h => hg.edge_left h.2

/-- What lies within some number of calls is at the end of a route that is no longer. -/
theorem within_iff (hg : Lawful g) : Within g depth n m ↔ ∃ calls ≤ depth, Route g calls n m := by
  constructor
  · intro h
    induction h with
    | here depth n => exact ⟨0, Nat.zero_le depth, .here n⟩
    | call hk _ ih =>
        rcases ih with ⟨calls, hle, hroute⟩
        exact ⟨calls + 1, Nat.succ_le_succ hle, .call ((mem_edges_iff hg).2 hk) hroute⟩
  · rintro ⟨calls, hle, hroute⟩
    refine Within.mono ?_ hle
    -- The length of the route is what the induction is on, so the bound is set aside.
    clear hle
    induction hroute with
    | here n => exact .here 0 n
    | call hk _ ih => exact .call ((mem_edges_iff hg).1 hk) ih

/-- A path of calls is a route of some length, of one call at least. -/
theorem transGen_iff : TransGen (fun a b => (a, b) ∈ edges g) n m ↔
    ∃ calls, 1 ≤ calls ∧ Route g calls n m := by
  constructor
  · intro h
    induction h using TransGen.head_induction_on with
    | single hk => exact ⟨1, le_rfl, .call hk (.here m)⟩
    | head hk _ ih =>
        rcases ih with ⟨calls, _, hroute⟩
        exact ⟨calls + 1, Nat.succ_pos calls, .call hk hroute⟩
  · rintro ⟨calls, hpos, hroute⟩
    induction hroute with
    | here => exact absurd hpos (by omega)
    | @call calls n k m hk hrest ih =>
        -- A route of one call is a path of one call, and a longer one begins with a call.
        cases hrest with
        | here => exact .single hk
        | call => exact .head hk (ih (Nat.succ_pos _))

/-- The extension of a node keeps the ends of its routes, whatever was kept before. -/
theorem mem_spread_iff_route (hg : Lawful g) (hn : n ∈ nodes g) {i : Int} :
    i ∈ spread g depth (ballAt keep n) ↔ i ∈ keep ∨
      ∃ calls m, 1 ≤ calls ∧ calls ≤ depth ∧ Route g calls n m ∧ m.id = i := by
  rw [mem_spread_ballAt_iff hg hn]
  refine or_congr_right ⟨?_, ?_⟩
  · rintro ⟨k, hk, m, d, hd, hwithin, hid⟩
    rcases (within_iff hg).1 hwithin with ⟨calls, hle, hroute⟩
    exact ⟨calls + 1, m, Nat.succ_pos calls, by omega, .call ((mem_edges_iff hg).2 hk) hroute, hid⟩
  · rintro ⟨calls, m, hpos, hle, hroute, hid⟩
    cases hroute with
    | here => exact absurd hpos (by omega)
    | @call calls _ k _ hk hrest =>
        exact ⟨k, (mem_edges_iff hg).1 hk, m, calls, hle, (within_iff hg).2 ⟨calls, le_rfl, hrest⟩,
          hid⟩

/-! ## Rounds -/

/-- The extension is one round after the other. -/
theorem spread_eq_iterate (g : G) (depth : Nat) (b : Ball) :
    spread g depth b = ((Ball.next g)^[depth] b).keep := by
  induction depth generalizing b with
  | zero => rfl
  | succ depth ih => rw [spread_succ, ih, Function.iterate_succ_apply]

/-- An empty round leads to no other. -/
theorem Ball.next_of_done (hb : b.round = []) : b.next g = b := by
  rw [Ball.next, hb]
  rcases b with ⟨keep, seen, round⟩
  obtain rfl : round = [] := hb
  rfl

/-- Each node that comes into a round brings a number that was not met before. -/
theorem size_seen_meetAll (ns : List Node) (b : Ball) :
    (ns.foldl Ball.meet b).seen.size + b.round.length =
      b.seen.size + (ns.foldl Ball.meet b).round.length := by
  induction ns generalizing b with
  | nil => rfl
  | cons n rest ih =>
      have hrest := ih (b.meet n)
      -- Meeting one node adds to both sides or to neither.
      have hfirst : (b.meet n).seen.size + b.round.length =
          b.seen.size + (b.meet n).round.length := by
        simp only [Ball.meet]
        split
        · rfl
        · next hnew =>
          rw [IdSet.size_insert hnew, List.length_append, List.length_singleton]
          omega
      rw [List.foldl_cons]
      omega

theorem size_seen_next (g : G) (b : Ball) :
    (b.next g).seen.size = b.seen.size + (b.next g).round.length :=
  size_seen_meetAll (b.round.flatMap (succs g)) { b with round := [] }

/-- What is met are nodes of the graph. -/
theorem seen_next_sub (hg : Lawful g) (hb : ∀ i ∈ b.seen, ∃ n ∈ nodes g, n.id = i) :
    ∀ i ∈ (b.next g).seen, ∃ n ∈ nodes g, n.id = i := by
  intro i hi
  rcases mem_seen_meetAll.1 hi with hold | ⟨m, hm, hid⟩
  · exact hb i hold
  · rcases List.mem_flatMap.1 hm with ⟨n, _, hm⟩
    exact ⟨m, (hg.mem_succs.1 hm).1, hid⟩

/-- If the next round is empty, the walk is over after this one or was over before. -/
theorem Ball.exists_halt_of_next (hdone : (b.next g).round = []) :
    ∃ k ≤ 1, ((Ball.next g)^[k] b).round = [] ∧ ∀ j < k, ((Ball.next g)^[j] b).round ≠ [] := by
  by_cases hround : b.round = []
  · exact ⟨0, Nat.zero_le 1, hround, fun j hj => absurd hj (Nat.not_lt_zero j)⟩
  · refine ⟨1, le_rfl, hdone, fun j hj => ?_⟩
    obtain rfl : j = 0 := by omega
    exact hround

/-- The rounds run empty. While they do not, more and more numbers are met, and there
    are no more of them than nodes. The induction is on how many nodes are not met. -/
theorem Ball.exists_halt (hg : Lawful g) : ∀ (room : Nat) {b : Ball},
    (∀ i ∈ b.seen, ∃ n ∈ nodes g, n.id = i) → (nodes g).length ≤ room + b.seen.size →
      ∃ k ≤ room + 1, ((Ball.next g)^[k] b).round = [] ∧
        ∀ j < k, ((Ball.next g)^[j] b).round ≠ [] := by
  intro room
  induction room with
  | zero =>
      intro b hb henough
      -- All numbers are met, so the next round finds no other.
      have hsize := CallGraph.size_le_length_nodes (seen_next_sub hg hb)
      rw [size_seen_next] at hsize
      exact exists_halt_of_next (List.length_eq_zero_iff.1 (by omega))
  | succ room ih =>
      intro b hb henough
      by_cases hdone : (b.next g).round = []
      · rcases exists_halt_of_next hdone with ⟨k, hk, hhalt⟩
        exact ⟨k, by omega, hhalt⟩
      · have hround : b.round ≠ [] := fun hround => hdone (by rwa [next_of_done hround])
        have hgrown := size_seen_next g b
        have hpos := List.length_pos_iff.2 hdone
        rcases ih (seen_next_sub hg hb) (by omega) with ⟨k, hk, hempty, hbefore⟩
        refine ⟨k + 1, by omega, hempty, fun j hj => ?_⟩
        cases j with
        | zero => exact hround
        | succ j => exact hbefore j (by omega)

theorem iterate_next_of_done {k j : Nat} (hdone : ((Ball.next g)^[k] b).round = []) (hle : k ≤ j) :
    (Ball.next g)^[j] b = (Ball.next g)^[k] b := by
  obtain ⟨rest, rfl⟩ : ∃ rest, j = rest + k := ⟨j - k, by omega⟩
  rw [Function.iterate_add_apply, Function.iterate_fixed (Ball.next_of_done hdone)]

/-! ## What an extension comes to -/

/-- What the extension of a node comes to. -/
structure Extends (g : G) (n : Node) (depth : Nat) (s : Search) : Prop where
  /-- The walk is over after some rounds, no more than there are nodes, however deep it may
      go, and before that only if its depth is less. -/
  halts : ∃ rounds ≤ (nodes g).length,
    (∀ j, ((Ball.next g)^[j] (ballAt s.keep n)).round = [] ↔ rounds ≤ j) ∧
    (s.extend g depth n).keep = ((Ball.next g)^[min depth rounds] (ballAt s.keep n)).keep
  /-- Only the kept numbers change. -/
  frame : s.extend g depth n = { s with keep := (s.extend g depth n).keep }
  /-- The ends of routes are kept, of one call at least and of as many as the depth says. -/
  mem_iff : ∀ i, i ∈ (s.extend g depth n).keep ↔ i ∈ s.keep ∨
    ∃ calls m, 1 ≤ calls ∧ calls ≤ depth ∧ Route g calls n m ∧ m.id = i
  /-- With a depth of as many calls as there are nodes, all that is reached is kept. -/
  mem_iff_of_le : (nodes g).length ≤ depth → ∀ i, i ∈ (s.extend g depth n).keep ↔ i ∈ s.keep ∨
    ∃ m, TransGen (fun a b => (a, b) ∈ edges g) n m ∧ m.id = i

/-- The walk from a node has a last round, no later than there are nodes. The node
    itself has been met, so there is one round less to go than there are nodes. -/
theorem exists_rounds (hg : Lawful g) (hn : n ∈ nodes g) (keep : IdSet) :
    ∃ rounds ≤ (nodes g).length,
      ∀ j, ((Ball.next g)^[j] (ballAt keep n)).round = [] ↔ rounds ≤ j := by
  have hseen : ∀ i ∈ (ballAt keep n).seen, ∃ n ∈ nodes g, n.id = i := by
    intro i hi
    have hid : i = n.id := by simpa [ballAt] using hi
    exact ⟨n, hn, hid.symm⟩
  have hone : (ballAt keep n).seen.size = 1 := rfl
  have hpos : 0 < (nodes g).length := List.length_pos_of_mem hn
  rcases Ball.exists_halt hg ((nodes g).length - 1) hseen (by omega) with
    ⟨rounds, hle, hdone, hbefore⟩
  refine ⟨rounds, by omega, fun j => ⟨fun hempty => ?_, fun hlater => ?_⟩⟩
  · exact Nat.le_of_not_lt fun hlt => hbefore j hlt hempty
  · rw [iterate_next_of_done hdone hlater, hdone]

/-- What an extension comes to follows from the laws of a graph, so views have it too. The
    rounds of the walk come to an end, and to go deeper than that changes nothing. So a
    depth of as many calls as there are nodes stands for any depth, and the route to a
    node that is reached is found by an extension that is deep enough for it. -/
theorem extends_of_lawful (hg : Lawful g) (hn : n ∈ nodes g) (depth : Nat) (s : Search) :
    Extends g n depth s := by
  have hkeep : ∀ d, (s.extend g d n).keep = spread g d (ballAt s.keep n) := fun d => rfl
  have hmem : ∀ d i, i ∈ (s.extend g d n).keep ↔ i ∈ s.keep ∨
      ∃ calls m, 1 ≤ calls ∧ calls ≤ d ∧ Route g calls n m ∧ m.id = i := fun d i => by
    rw [hkeep, mem_spread_iff_route hg hn]
  rcases exists_rounds hg hn s.keep with ⟨rounds, hle, hround⟩
  have hdone : ((Ball.next g)^[rounds] (ballAt s.keep n)).round = [] := (hround rounds).2 le_rfl
  have hcut : ∀ d, (s.extend g d n).keep =
      ((Ball.next g)^[min d rounds] (ballAt s.keep n)).keep := by
    intro d
    rw [hkeep, spread_eq_iterate]
    rcases Nat.le_total d rounds with hless | hmore
    · rw [Nat.min_eq_left hless]
    · rw [Nat.min_eq_right hmore, iterate_next_of_done hdone hmore]
  refine ⟨⟨rounds, hle, hround, hcut depth⟩, rfl, hmem depth, fun hdeep i => ?_⟩
  constructor
  · intro hi
    refine ((hmem depth i).1 hi).imp_right ?_
    rintro ⟨calls, m, hpos, _, hroute, hid⟩
    exact ⟨m, transGen_iff.2 ⟨calls, hpos, hroute⟩, hid⟩
  · -- A route of any length is found by an extension that is deeper still, and to go deeper than
    -- there are rounds makes no difference.
    rintro (hi | ⟨m, hled, hid⟩)
    · exact (hmem depth i).2 (Or.inl hi)
    · rcases transGen_iff.1 hled with ⟨calls, hpos, hroute⟩
      have hsame : (s.extend g depth n).keep = (s.extend g (max depth calls) n).keep := by
        rw [hcut, hcut, Nat.min_eq_right (by omega), Nat.min_eq_right (by omega)]
      rw [hsame, hmem]
      exact Or.inr ⟨calls, m, hpos, le_max_right depth calls, hroute, hid⟩

/-- The extension of a node of a graph, or of any view of it, comes to an end for every
    depth, and whatever was kept before it adds the ends of the routes up to its depth.

    Only the node itself has been met when the walk begins. What had been kept before is
    neither a boundary nor a shortcut: routes go through it, and it is not followed for
    its own sake. -/
theorem extend_exact {g : Graph} (hg : g.Obtainable) (filter : Filter) (n : Node) (depth : Nat)
    (s : Search) : (n ∈ nodes g → Extends g n depth s) ∧
      (n ∈ nodes (View.mk g filter) → Extends (View.mk g filter) n depth s) := by
  have hlawful : Lawful g := hg.wellFormed.lawful
  have hview : Lawful (View.mk g filter) := View.lawful hlawful
  exact ⟨fun hn => extends_of_lawful hlawful hn depth s,
    fun hn => extends_of_lawful hview hn depth s⟩

/-- C lies two calls from A, beyond B, which had been kept. In the view A calls only itself, so
    the highest depth adds A and no more. -/
theorem extend_exact_letters :
    let a := View.lettered 2 "A"
    let s : Search := { keep := IdSet.ofList [3, 9] }
    let filter : Filter :=
      { keep := IdSet.ofList [2, 3, 4], hidden := Table.empty.insert 2 (IdSet.ofList [3]) }
    (a ∈ nodes View.letters ∧ (s.extend View.letters 2 a).keep = IdSet.ofList [2, 3, 4, 9] ∧
      Extends View.letters a 2 s) ∧
    a ∈ nodes (View.mk View.letters filter) ∧
      (s.extend (View.mk View.letters filter) 9223372036854775807 a).keep =
        IdSet.ofList [2, 3, 9] ∧
      Extends (View.mk View.letters filter) a 9223372036854775807 s := by
  intro a s filter
  have hg : View.letters.Obtainable := ⟨0, _, rfl⟩
  have hwhole : a ∈ nodes View.letters := by decide +kernel
  have hview : a ∈ nodes (View.mk View.letters filter) := by decide +kernel
  exact ⟨⟨hwhole, by decide +kernel, (extend_exact hg filter a 2 s).1 hwhole⟩, hview,
    by decide +kernel, (extend_exact hg filter a 9223372036854775807 s).2 hview⟩

end Prune

end CallAtlas
