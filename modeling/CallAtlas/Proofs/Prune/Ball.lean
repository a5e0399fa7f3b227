import CallAtlas.Proofs.Prune.Connected

/-!
# How Far an Extension Reaches

The extension walks outward from a node in rounds and looks at each node once, however
many calls lead to it. This module says what it has kept in the end: everything within
as many calls as there were rounds, and nothing else. What had been kept before makes no
difference to where the walk goes, because a walk remembers by itself what it has met.

A node that is met a second time is not looked at again. Nothing is lost by this: it was
met in an earlier round, so its callees are met by now, or it belongs to the round at
hand. `Rounds` says so, and it is kept by every round.

## Main definitions

* `Prune.Within`: At most some number of calls lead from one node to another.
* `Prune.Ball.Rounds`: What was met in earlier rounds has its callees met and kept.

## Theorems

* `Prune.spread_succ`: One round, and the rest of the walk.
* `Prune.Ball.Rounds.next`: A round keeps the order of rounds.
* `Prune.mem_spread_ballAt_iff`: What the extension of a node keeps.
* `Prune.mem_spread_ballAt`: The same for a node that is kept already.
-/

namespace CallAtlas

namespace Prune

open CallGraph (Lawful LeadsTo nodes succs)

variable {G : Type} [CallGraph G] {g : G} {n m : Node} {keep : IdSet} {depth : Nat} {b : Ball}
  {ns : List Node}

/-- At most some number of calls lead from one node to another. -/
inductive Within (g : G) : Nat → Node → Node → Prop
  | here (depth : Nat) (n : Node) : Within g depth n n
  | call {depth : Nat} {n k m : Node} : k ∈ succs g n → Within g depth k m →
      Within g (depth + 1) n m

/-- What lies within some number of calls lies within more. -/
theorem Within.mono {depth' : Nat} (h : Within g depth n m) (hle : depth ≤ depth') :
    Within g depth' n m := by
  induction h generalizing depth' with
  | here depth n => exact .here depth' n
  | call hk _ ih =>
      obtain ⟨rest, rfl⟩ : ∃ rest, depth' = rest + 1 := ⟨depth' - 1, by omega⟩
      exact .call hk (ih (by omega))

theorem Within.leadsTo (h : Within g depth n m) : LeadsTo g n m := by
  induction h with
  | here => exact .refl
  | call hk _ ih => exact .head hk ih

/-! ## One round -/

/-- Meeting nodes keeps their numbers, whether they were met before or not. -/
theorem mem_keep_meetAll {i : Int} :
    i ∈ (ns.foldl Ball.meet b).keep ↔ i ∈ b.keep ∨ ∃ n ∈ ns, n.id = i := by
  induction ns generalizing b with
  | nil => simp
  | cons n rest ih =>
      rw [List.foldl_cons, ih, keep_meet, IdSet.mem_insert, List.exists_mem_cons_iff]
      simp only [eq_comm (a := i), or_assoc, or_left_comm]

theorem mem_seen_meet {i : Int} : i ∈ (b.meet n).seen ↔ i = n.id ∨ i ∈ b.seen := by
  simp only [Ball.meet]
  split
  · next h => exact ⟨Or.inr, fun hi => hi.elim (fun heq => heq ▸ h) id⟩
  · exact IdSet.mem_insert

/-- The numbers that have been met are those from before and those of the nodes. -/
theorem mem_seen_meetAll {i : Int} :
    i ∈ (ns.foldl Ball.meet b).seen ↔ i ∈ b.seen ∨ ∃ n ∈ ns, n.id = i := by
  induction ns generalizing b with
  | nil => simp
  | cons n rest ih =>
      rw [List.foldl_cons, ih, mem_seen_meet, List.exists_mem_cons_iff]
      simp only [eq_comm (a := i), or_assoc, or_left_comm]

/-- A node of the next round was in it before or has just been met. -/
theorem mem_round_meetAll (hm : m ∈ (ns.foldl Ball.meet b).round) : m ∈ b.round ∨ m ∈ ns := by
  induction ns generalizing b with
  | nil => exact Or.inl hm
  | cons n rest ih =>
      rcases ih hm with hm | hm
      · rcases mem_round_meet hm with hm | rfl
        · exact Or.inl hm
        · exact Or.inr List.mem_cons_self
      · exact Or.inr (List.mem_cons_of_mem n hm)

/-- A number is met for the first time by a node that comes into the round, and it is
    the only node of the graph with this number. So what has been met is in the round or
    was met before. -/
theorem mem_round_of_seen (hg : Lawful g) (hns : ∀ n ∈ ns, n ∈ nodes g) (hm : m ∈ nodes g)
    (hseen : m.id ∈ (ns.foldl Ball.meet b).seen) :
    m.id ∈ b.seen ∨ m ∈ (ns.foldl Ball.meet b).round := by
  -- What is in the round stays there while further nodes are met.
  have hstays : ∀ (l : List Node) (b : Ball), m ∈ b.round → m ∈ (l.foldl Ball.meet b).round := by
    intro l
    induction l with
    | nil => exact fun b h => h
    | cons n rest ih =>
        intro b h
        refine ih (b.meet n) ?_
        simp only [Ball.meet]
        split
        · exact h
        · exact List.mem_append_left [n] h
  induction ns generalizing b with
  | nil => exact Or.inl hseen
  | cons n rest ih =>
      rcases ih (fun k hk => hns k (List.mem_cons_of_mem n hk)) hseen with hold | hround
      · rcases mem_seen_meet.1 hold with hid | hold
        · by_cases hbefore : m.id ∈ b.seen
          · exact Or.inl hbefore
          · -- The number is new with this node, and no other node has it.
            have hmn : m = n := hg.eq_of_id hm (hns n List.mem_cons_self) hid
            refine Or.inr (hstays rest (b.meet n) ?_)
            rw [hmn] at hbefore
            simp only [Ball.meet, if_neg hbefore, hmn]
            exact List.mem_append_right b.round List.mem_cons_self
        · exact Or.inl hold
      · exact Or.inr hround

/-- The walk after one more round. -/
def Ball.next (g : G) (b : Ball) : Ball :=
  (b.round.flatMap (succs g)).foldl Ball.meet { b with round := [] }

/-- One round, and the rest of the walk. An empty round changes nothing. -/
theorem spread_succ (g : G) (depth : Nat) (b : Ball) :
    spread g (depth + 1) b = spread g depth (b.next g) := by
  rcases b with ⟨keep, seen, round⟩
  cases round with
  | nil => cases depth <;> rfl
  | cons n rest => rfl

/-- A round keeps what its nodes call. -/
theorem mem_keep_next {i : Int} :
    i ∈ (b.next g).keep ↔ i ∈ b.keep ∨ ∃ n ∈ b.round, ∃ m ∈ succs g n, m.id = i := by
  simp only [Ball.next, mem_keep_meetAll, List.mem_flatMap]
  refine or_congr_right ⟨?_, ?_⟩
  · rintro ⟨m, ⟨n, hn, hm⟩, hid⟩
    exact ⟨n, hn, m, hm, hid⟩
  · rintro ⟨n, hn, m, hm, hid⟩
    exact ⟨m, ⟨n, hn, hm⟩, hid⟩

theorem mem_seen_next_of_call (hn : n ∈ b.round) (hm : m ∈ succs g n) :
    m.id ∈ (b.next g).seen :=
  mem_seen_meetAll.2 (Or.inr ⟨m, List.mem_flatMap.2 ⟨n, hn, hm⟩, rfl⟩)

theorem mem_round_next (hm : m ∈ (b.next g).round) : ∃ n ∈ b.round, m ∈ succs g n := by
  rcases mem_round_meetAll hm with hm | hm
  · exact absurd hm List.not_mem_nil
  · exact List.mem_flatMap.1 hm

/-- What was met in earlier rounds has its callees met and kept. This is the invariant
    of the walk: a node that was met is either about to be followed or has been. -/
def Ball.Rounds (g : G) (b : Ball) : Prop :=
  ∀ n ∈ nodes g, n.id ∈ b.seen → n ∈ b.round ∨ ∀ m ∈ succs g n, m.id ∈ b.seen ∧ m.id ∈ b.keep

/-- A round keeps the order of rounds, and all callees of what was met are met after it. -/
theorem Ball.Rounds.next (hg : Lawful g) (h : b.Rounds g) :
    (b.next g).Rounds g ∧ ∀ n ∈ nodes g, n.id ∈ b.seen → ∀ m ∈ succs g n,
      m.id ∈ (b.next g).seen ∧ m.id ∈ (b.next g).keep := by
  have hcallees : ∀ n ∈ nodes g, n.id ∈ b.seen → ∀ m ∈ succs g n,
      m.id ∈ (b.next g).seen ∧ m.id ∈ (b.next g).keep := by
    intro n hn hseen m hm
    -- A node that was met is in the round or its callees were met with it.
    rcases h n hn hseen with hround | hdone
    · exact ⟨mem_seen_next_of_call hround hm, mem_keep_next.2 (Or.inr ⟨n, hround, m, hm, rfl⟩)⟩
    · rcases hdone m hm with ⟨hmet, hkept⟩
      exact ⟨mem_seen_meetAll.2 (Or.inl hmet), mem_keep_next.2 (Or.inl hkept)⟩
  refine ⟨fun n hn hseen => ?_, hcallees⟩
  have hnodes : ∀ k ∈ b.round.flatMap (succs g), k ∈ nodes g := by
    intro k hk
    rcases List.mem_flatMap.1 hk with ⟨j, _, hk⟩
    exact (hg.mem_succs.1 hk).1
  rcases mem_round_of_seen hg hnodes hn hseen with hold | hround
  · exact Or.inr (hcallees n hn hold)
  · exact Or.inl hround

/-! ## The whole walk -/

/-- What is kept stays so. -/
theorem mem_spread_of_mem {i : Int} (hi : i ∈ b.keep) : i ∈ spread g depth b := by
  induction depth generalizing b with
  | zero => exact hi
  | succ depth ih =>
      rw [spread_succ]
      exact ih (mem_keep_next.2 (Or.inl hi))

/-- Nothing is kept that lies further away than there are rounds. What is kept anew is called,
    from the round at hand or from beyond it. -/
theorem exists_call_of_mem_spread {i : Int} (hi : i ∈ spread g depth b) :
    i ∈ b.keep ∨ ∃ n ∈ b.round, ∃ k ∈ succs g n, ∃ m, ∃ d < depth, Within g d k m ∧ m.id = i := by
  induction depth generalizing b with
  | zero => exact Or.inl hi
  | succ depth ih =>
      rw [spread_succ] at hi
      rcases ih hi with hkept | ⟨j, hj, k, hk, m, d, hd, hwithin, hid⟩
      · rcases mem_keep_next.1 hkept with hkept | ⟨n, hn, m, hm, hid⟩
        · exact Or.inl hkept
        · exact Or.inr ⟨n, hn, m, hm, m, 0, Nat.succ_pos depth, .here 0 m, hid⟩
      · rcases mem_round_next hj with ⟨n, hn, hj⟩
        exact Or.inr ⟨n, hn, j, hj, m, d + 1, Nat.succ_lt_succ hd, .call hk hwithin, hid⟩

/-- Whatever was met, everything beyond it within the rounds that are left is kept. The
    induction is on the rounds. A node that was met long ago may lie closer than the
    rounds tell, which is why this is said of all nodes that were met and not of the
    round at hand. -/
theorem mem_spread_of_within (hg : Lawful g) (hb : b.Rounds g) {k : Node} (hn : n ∈ nodes g)
    (hseen : n.id ∈ b.seen) (hk : k ∈ succs g n) (hwithin : Within g depth k m) :
    m.id ∈ spread g (depth + 1) b := by
  induction depth generalizing b n k with
  | zero =>
      cases hwithin
      rw [spread_succ]
      exact ((hb.next hg).2 n hn hseen m hk).2
  | succ depth ih =>
      rw [spread_succ]
      rcases hb.next hg with ⟨hnext, hcallees⟩
      -- The callee is met in this round, and what lies beyond it has one round less.
      rcases hcallees n hn hseen k hk with ⟨hmet, hkept⟩
      cases hwithin with
      | here => exact mem_spread_of_mem hkept
      | call hj hrest => exact ih hnext (hg.mem_succs.1 hk).1 hmet hj hrest

/-- The extension of a node keeps what the node calls and what lies beyond that, within its
    depth. The node itself is kept anew only if it is called. -/
theorem mem_spread_ballAt_iff (hg : Lawful g) (hn : n ∈ nodes g) {i : Int} :
    i ∈ spread g depth (ballAt keep n) ↔
      i ∈ keep ∨ ∃ k ∈ succs g n, ∃ m, ∃ d < depth, Within g d k m ∧ m.id = i := by
  constructor
  · intro hi
    rcases exists_call_of_mem_spread hi with hkept | ⟨a, ha, hcall⟩
    · exact Or.inl hkept
    · rw [ballAt, List.mem_singleton] at ha
      subst ha
      exact Or.inr hcall
  · rintro (hi | ⟨k, hk, m, d, hd, hwithin, rfl⟩)
    · exact mem_spread_of_mem hi
    · -- Only the node itself has been met, and it makes up the first round.
      have hrounds : (ballAt keep n).Rounds g := by
        intro k hk hseen
        have hid : k.id = n.id := by
          simpa [ballAt] using hseen
        rw [hg.eq_of_id hk hn hid]
        exact Or.inl List.mem_cons_self
      have hmet : n.id ∈ (ballAt keep n).seen := IdSet.mem_insert.2 (Or.inl rfl)
      obtain ⟨rest, rfl⟩ : ∃ rest, depth = rest + 1 := ⟨depth - 1, by omega⟩
      exact mem_spread_of_within hg hrounds hn hmet hk (hwithin.mono (by omega))

/-- The extension of a kept node keeps what lies within its depth, and nothing else. The
    node lies within every depth of itself, and being kept makes up for the calls that
    it takes at least. -/
theorem mem_spread_ballAt (hg : Lawful g) (hn : n ∈ nodes g) (hkeep : n.id ∈ keep) {i : Int} :
    i ∈ spread g depth (ballAt keep n) ↔ i ∈ keep ∨ ∃ m, Within g depth n m ∧ m.id = i := by
  rw [mem_spread_ballAt_iff hg hn]
  constructor
  · rintro (hi | ⟨k, hk, m, d, hd, hwithin, hid⟩)
    · exact Or.inl hi
    · exact Or.inr ⟨m, (Within.call hk hwithin).mono hd, hid⟩
  · rintro (hi | ⟨m, hwithin, rfl⟩)
    · exact Or.inl hi
    · cases hwithin with
      | here => exact Or.inl hkeep
      | @call d _ k _ hk hrest => exact Or.inr ⟨k, hk, m, d, Nat.lt_succ_self d, hrest, rfl⟩

end Prune

end CallAtlas
