import CallAtlas.Proofs.Closure.Exactness
import CallAtlas.Proofs.Closure.Order

/-!
# Runs That Are Cut Short

A caller that stops waiting finds the graph as far as it was built. This module says
how far that is. A run that is cut after some number of looks has read that many
nodes, or all there are, and the graph it leaves is the one that the whole run had at
that moment. So it has the first nodes of the whole graph, with their numbers. The
nodes that were read have all their sites and targets, and the others have none.

A cut run and the whole run are both compared with `advance`, the run without a caller.
The run that is cut after `k` looks is `advance` by `k` nodes, and the whole run is
`advance` by as many as there are units and one more for the root. Whether a run is cut
is decided by how many nodes the whole run reads. All but the fake world-clinit node are
read, each of them once, because each is put on the worklist once.

## Main definitions

* `Closure.advance`: The closure after some more nodes are read.
* `Closure.processed`: The nodes that were read.

## Theorems

* `Closure.run_of_bounded`, `Closure.run_of_unbounded`: Runs as advances.
* `Closure.Orderly.advance_keeps`: What moves keep, runs keep.
* `Closure.Orderly.worklist_of_live_le`, `Closure.Orderly.worklist_advance`: Steps for all units
  are enough.
* `Closure.Orderly.pops_advance`: How many nodes are read, and when nothing is left.
* `Closure.Orderly.length_processed`: Each node is read once.
* `Closure.Orderly.later_advance`: The whole run continues what a cut run leaves.
* `Closure.Orderly.code_of_processed`: A node that was read has everything it will have.
* `Closure.Orderly.code_of_not_processed`: A node that was not read has no code.
* `Closure.callsAnswers_advance`: A run calls answers only.
* `Closure.worklist_run_iff`, `Closure.worklist_described_iff`: When a run has read everything.
* `Closure.build_cut`: All of this for the closure of a list of entrypoints.
-/

namespace CallAtlas

namespace Closure

open CallAtlas.Graph (rootId clinitId)

variable {σ : Type} {h : Hierarchy σ} {only : Bool} {n : Node} {c : Closure σ}

/-! ## Runs without a caller -/

/-- The closure after up to `k` more nodes are read. -/
def advance (h : Hierarchy σ) (only : Bool) : (k : Nat) → Closure σ → Closure σ
  | 0, c => c
  | k + 1, c =>
    match c.worklist with
    | [] => c
    | n :: rest => advance h only k (step h only { c with worklist := rest } n)

/-- Nothing happens once nothing is left to read. -/
theorem advance_of_done (k : Nat) (hw : c.worklist = []) : advance h only k c = c := by
  cases k with
  | zero => rfl
  | succ k =>
      unfold advance
      rw [hw]

theorem advance_succ {rest : List Node} (k : Nat) (hw : c.worklist = n :: rest) :
    advance h only (k + 1) c = advance h only k (step h only { c with worklist := rest } n) := by
  rw [advance, hw]

/-- A run may be stopped and taken up again. -/
theorem advance_add (j k : Nat) (c : Closure σ) :
    advance h only (j + k) c = advance h only k (advance h only j c) := by
  induction j generalizing c with
  | zero => rw [Nat.zero_add, advance]
  | succ j ih =>
      cases hw : c.worklist with
      | nil => rw [advance_of_done _ hw, advance_of_done _ hw, advance_of_done _ hw]
      | cons n rest => rw [Nat.add_right_comm, advance_succ _ hw, advance_succ _ hw, ih]

/-- A run that nobody cuts reads as many nodes as it has steps, or all. -/
theorem run_of_unbounded {life : Lifetime} (hlife : life.polls = none) (steps : Nat)
    (c : Closure σ) : run h only steps life c = (advance h only steps c, none) := by
  induction steps generalizing c with
  | zero => rfl
  | succ steps ih =>
      unfold run
      cases hw : c.worklist with
      | nil => rw [advance_of_done _ hw]
      | cons n rest =>
          rw [Lifetime.poll_of_unbounded hlife, advance_succ _ hw]
          exact ih _

/-- A run that is cut after `k` looks reads up to `k` nodes. It is cut if it has steps
    left and something is left to read. The caller is looked after before each node, so
    `k` looks are `k` nodes. -/
theorem run_of_bounded (cause : EndCause) (steps k : Nat) (c : Closure σ) :
    run h only steps { polls := some k, cause } c =
      (advance h only (min steps k) c,
        if k < steps ∧ (advance h only k c).worklist ≠ [] then some cause else none) := by
  induction steps generalizing k c with
  | zero => simp [run, advance]
  | succ steps ih =>
      unfold run
      cases hw : c.worklist with
      | nil => simp [advance_of_done _ hw, hw]
      | cons n rest =>
          -- Without a look left the run is cut here, as there is a node to read.
          cases k with
          | zero => simp [Lifetime.poll, advance, hw]
          | succ k =>
              simp only [Lifetime.poll, ih, Nat.add_min_add_right, advance_succ _ hw,
                Nat.add_lt_add_iff_right]

/-- Whoever waits, a run leaves what it has after some number of nodes. What holds of
    every such state holds of every run, however it ends. -/
theorem exists_run_eq_advance (h : Hierarchy σ) (only : Bool) (steps : Nat) (life : Lifetime)
    (c : Closure σ) : ∃ k, (run h only steps life c).1 = advance h only k c := by
  rcases life with ⟨polls, cause⟩
  cases polls with
  | none => exact ⟨steps, by rw [run_of_unbounded rfl]⟩
  | some k => exact ⟨min steps k, by rw [run_of_bounded]⟩

/-- If there are steps enough for everything, a run is cut short exactly if it leaves something to
    read. Without that a run could end for lack of steps, and no one would be told. -/
theorem worklist_run_iff {steps : Nat} (hall : (advance h only steps c).worklist = [])
    (life : Lifetime) :
    (run h only steps life c).1.worklist = [] ↔ (run h only steps life c).2 = none := by
  rcases life with ⟨_ | k, cause⟩
  · rw [run_of_unbounded rfl]
    exact iff_of_true hall rfl
  · rw [run_of_bounded]
    rcases Nat.lt_or_ge k steps with hk | hk
    · -- The caller may leave before the steps are used up.
      simp only [Nat.min_eq_right hk.le, hk, true_and]
      split
      · next hwaits => exact iff_of_false hwaits (by simp)
      · next hdone => exact iff_of_true (not_not.1 hdone) rfl
    · simp only [Nat.min_eq_left hk, Nat.not_lt.2 hk, false_and, if_false, iff_true]
      exact hall

/-! ## How far a run gets -/

/-- The order is kept along a run, and the state at its end continues that at its start.
    A live number that is open after a step was open before it, so what the later steps may
    write to is among what the first might. -/
theorem Orderly.advance (hc : Orderly h none c.bare) (hcached : Cached h c) (only : Bool) (k : Nat) :
    Orderly h none (advance h only k c).bare ∧ Cached h (Closure.advance h only k c) ∧
      Later (Open c.bare) c.bare (Closure.advance h only k c).bare := by
  induction k generalizing c with
  | zero => exact ⟨hc, hcached, Graph.Grown.refl _ _, Or.inl⟩
  | succ k ih =>
      cases hw : c.worklist with
      | nil =>
          rw [advance_of_done _ hw]
          exact ⟨hc, hcached, Graph.Grown.refl _ _, Or.inl⟩
      | cons n rest =>
          -- One step, and then the rest of the run from where it leads.
          rcases hc.step hcached hw only with ⟨hc₁, hcached₁, hlater, _, _⟩
          rcases ih hc₁ hcached₁ with ⟨hc₂, hcached₂, hlater₂⟩
          rw [advance_succ _ hw]
          refine ⟨hc₂, hcached₂, hlater.trans hlater₂ hc.wellFormed hc₁.wellFormed ?_⟩
          exact fun i hi hopen => hlater.open_of_open hi hopen

/-- What every move keeps of the graph and the number of initializers, a run keeps. A
    run is a chain of steps and a step a chain of moves, so an invariant of graphs is
    proved for the moves and used for whole runs. -/
theorem Orderly.advance_keeps {P : Graph → Nat → Prop}
    (hmove : ∀ {n : Node} {c c' : Closure Unit}, Orderly h (some n) c → Move h n c c' →
      P c.graph c.initializers → P c'.graph c'.initializers)
    (hc : Orderly h none c.bare) (hcached : Cached h c) (hP : P c.graph c.initializers)
    (only : Bool) (k : Nat) :
    P (Closure.advance h only k c).graph (Closure.advance h only k c).initializers := by
  -- Reading a node is a chain of moves, so the property is kept while one node is read.
  have hmoves : ∀ {n : Node} {c c' : Closure Unit}, Orderly h (some n) c →
      Relation.ReflTransGen (Move h n) c c' → P c.graph c.initializers →
      P c'.graph c'.initializers := by
    intro n c c' hc hchain hP
    induction hchain with
    | refl => exact hP
    | tail hchain hlast ih => exact hmove (hc.moves hchain).orderly hlast ih
  induction k generalizing c with
  | zero => exact hP
  | succ k ih =>
      cases hw : c.worklist with
      | nil =>
          rw [advance_of_done _ hw]
          exact hP
      | cons n rest =>
          rcases hc.step hcached hw only with ⟨hc₁, hcached₁, _⟩
          have hrest : Cached h { c with worklist := rest } := hcached.congr rfl rfl
          rw [advance_succ _ hw]
          exact ih hc₁ hcached₁ (hmoves (hc.take hw) (moves_step hrest only n).1 hP)

/-- A run that leaves something to read has read as many nodes as it may. -/
theorem Orderly.pops_of_waiting (hc : Orderly h none c.bare) (hcached : Cached h c) (only : Bool)
    {steps : Nat} (hwaits : (Closure.advance h only steps c).worklist ≠ []) :
    (Closure.advance h only steps c).pops = c.pops + steps := by
  induction steps generalizing c with
  | zero => rfl
  | succ steps ih =>
      -- Each step reads one node, as long as there are nodes to read.
      cases hw : c.worklist with
      | nil =>
          rw [advance_of_done _ hw] at hwaits
          exact absurd hw hwaits
      | cons n rest =>
          rcases hc.step hcached hw only with ⟨hc₁, hcached₁, _, hpops, _⟩
          rw [advance_succ _ hw] at hwaits ⊢
          rw [ih hc₁ hcached₁ hwaits, hpops]
          omega

/-- A graph that has stayed small leaves nothing to read: each node that was read and each that
    waits is one of its nodes, and so is the fake world-clinit node, which is neither. -/
theorem Orderly.worklist_of_live_le (hc : Orderly h none c.bare) (hcached : Cached h c)
    (only : Bool) {bound steps : Nat}
    (hlive : (Closure.advance h only steps c).graph.live ≤ bound + 2)
    (hsteps : bound < steps + c.pops) : (Closure.advance h only steps c).worklist = [] := by
  by_contra hwaits
  have hpops := hc.pops_of_waiting hcached only hwaits
  have hbalance := (hc.advance hcached only steps).1.balance
  have hpos := List.length_pos_of_ne_nil hwaits
  change (Closure.advance h only steps c).graph.live =
    (Closure.advance h only steps c).worklist.length + (Closure.advance h only steps c).pops + 1
    at hbalance
  omega

/-- Steps for all units are enough to leave nothing to read. -/
theorem Orderly.worklist_advance (hfinite : {u | h.Mentions u}.Finite)
    (hcard : {u | h.Mentions u}.ncard ≤ h.bound) (hc : Orderly h none c.bare) (hcached : Cached h c)
    (only : Bool) {steps : Nat} (hsteps : h.bound < steps + c.pops) :
    (Closure.advance h only steps c).worklist = [] := by
  have hdone := (hc.advance hcached only steps).1
  exact hc.worklist_of_live_le hcached only
    (hdone.wellFormed.live_le_of_everywhere hdone.everywhere hdone.mentioned hfinite hcard) hsteps

/-- Of two runs, of which the second leaves nothing to read, the first reads as many nodes as
    it may or as the second does, and leaves nothing to read if it may read as many. -/
theorem Orderly.pops_advance (hc : Orderly h none c.bare) (hcached : Cached h c) (only : Bool)
    {steps : Nat} (hdone : (Closure.advance h only steps c).worklist = []) (k : Nat) :
    (Closure.advance h only k c).pops =
        min (c.pops + k) (Closure.advance h only steps c).pops ∧
      ((Closure.advance h only k c).worklist = [] ↔
        (Closure.advance h only steps c).pops ≤ c.pops + k) := by
  induction steps generalizing c k with
  | zero =>
      change c.worklist = [] at hdone
      rw [advance_of_done _ hdone, advance_of_done _ hdone]
      refine ⟨by omega, iff_of_true hdone (by omega)⟩
  | succ steps ih =>
      cases hw : c.worklist with
      | nil =>
          rw [advance_of_done _ hw, advance_of_done _ hw]
          refine ⟨by omega, iff_of_true hw (by omega)⟩
      | cons n rest =>
          rcases hc.step hcached hw only with ⟨hc₁, hcached₁, _, hpops, _⟩
          rw [advance_succ _ hw] at hdone ⊢
          cases k with
          | zero =>
              -- The second run reads this node, so it reads more than none.
              have hmore := (ih hc₁ hcached₁ hdone 0).1
              rw [Closure.advance, hpops] at hmore
              rw [Closure.advance]
              refine ⟨by omega, iff_of_false (by simp [hw]) (by omega)⟩
          | succ k =>
              have hnext := ih hc₁ hcached₁ hdone k
              rw [hpops] at hnext
              rw [advance_succ _ hw, hnext.1, hnext.2]
              refine ⟨by omega, by omega⟩

/-! ## The nodes that were read -/

/-- The nodes that were read: all but those that wait and the fake world-clinit node,
    which never does. -/
def processed (c : Closure σ) : List Node :=
  c.graph.nodes.filter fun n => n.kind ≠ .fakeWorldClinit ∧ n ∉ c.worklist

/-- A node was read if it is in the graph and does not wait, apart from the node that never does. -/
theorem Orderly.mem_processed (hc : Orderly h none c.bare) :
    n ∈ c.processed ↔ c.graph.contains n ∧ n.kind ≠ .fakeWorldClinit ∧ n ∉ c.worklist := by
  have hwf : c.graph.WellFormed := hc.wellFormed
  rw [processed, List.mem_filter, decide_eq_true_iff, hwf.contains_iff_mem_nodes]

/-- Each node is read once: there are as many nodes that were read as nodes were taken
    off the worklist. The nodes of the graph are split into those that were read and the
    others, and the others are counted by the balance. -/
theorem Orderly.length_processed (hc : Orderly h none c.bare) : c.processed.length = c.pops := by
  have hwf : c.graph.WellFormed := hc.wellFormed
  have hclinit : c.graph.contains c.clinitNode := Graph.contains_iff.2 hwf.clinit
  have hkind : ∀ {k}, c.graph.contains k → k.kind = .fakeWorldClinit → k = c.clinitNode := by
    intro k hk hkind
    exact Graph.eq_of_contains hk hclinit ((hwf.kind_eq_fakeWorldClinit_iff hk).1 hkind)
  have hfree : c.clinitNode ∉ c.worklist := fun hmem => (hc.waiting hmem).2 rfl
  -- The other nodes are the fake world-clinit node and those that wait.
  have hothers : (c.graph.nodes.filter fun n =>
      !decide (n.kind ≠ .fakeWorldClinit ∧ n ∉ c.worklist)).Perm (c.clinitNode :: c.worklist) := by
    refine (List.perm_ext_iff_of_nodup ((nodup_of_ascending hwf.nodes_ascending).filter _)
      (List.nodup_cons.2 ⟨hfree, hc.worklist_nodup⟩)).2 fun k => ?_
    rw [List.mem_filter, ← hwf.contains_iff_mem_nodes, List.mem_cons]
    simp only [ne_eq, Bool.not_eq_true', decide_eq_false_iff_not, not_and, not_not]
    constructor
    · rintro ⟨hk, hrest⟩
      by_cases hkk : k.kind = .fakeWorldClinit
      · exact Or.inl (hkind hk hkk)
      · exact Or.inr (hrest hkk)
    · rintro (rfl | hk)
      · exact ⟨hclinit, fun hne => absurd rfl hne⟩
      · exact ⟨(hc.waiting hk).1, fun _ => hk⟩
  have hsplit := List.length_eq_length_filter_add (l := c.graph.nodes)
    fun n => decide (n.kind ≠ .fakeWorldClinit ∧ n ∉ c.worklist)
  have hbalance := hc.balance
  change c.graph.live = c.worklist.length + c.pops + 1 at hbalance
  rw [hothers.length_eq, List.length_cons] at hsplit
  rw [← hwf.length_nodes] at hbalance
  change (List.filter _ c.graph.nodes).length = c.pops
  omega

/-- A node that was read is not written to again. It does not wait, and it is not the
    fake world-clinit node. -/
theorem Orderly.not_open_of_processed (hc : Orderly h none c.bare) (hn : n ∈ c.processed) :
    ¬Open c.bare n.id := by
  have hwf : c.graph.WellFormed := hc.wellFormed
  rcases hc.mem_processed.1 hn with ⟨hin, hkind, hfree⟩
  intro hopen
  rcases hopen with ⟨m, hm, hid⟩ | hid
  · rw [Graph.eq_of_contains (hc.waiting hm).1 hin hid] at hm
    exact hfree hm
  · exact hkind ((hwf.kind_eq_fakeWorldClinit_iff hin).2 hid)

/-- A node that was read has everything it will have. Whatever the run does later, it
    writes to other nodes. -/
theorem Orderly.code_of_processed {c' : Closure σ} (hc : Orderly h none c.bare)
    (hc' : Orderly h none c'.bare) (hlater : Later (Open c.bare) c.bare c'.bare)
    (hn : n ∈ c.processed) : c.graph.callSites n = c'.graph.callSites n ∧
      ∀ site, c.graph.targets n site = c'.graph.targets n site := by
  have hin := (hc.mem_processed.1 hn).1
  have hclosed := hc.not_open_of_processed hn
  constructor
  · exact (hlater.callSites_eq hc.wellFormed hc'.wellFormed hin hclosed).symm
  · intro site
    exact (hlater.targets_eq hc.wellFormed hc'.wellFormed hin hclosed site).symm

/-- An ordinary node that was not read has no code in the graph. -/
theorem Orderly.code_of_not_processed (hc : Orderly h none c.bare) (hn : c.graph.contains n)
    (hord : n.kind = .ordinary) (hnot : n ∉ c.processed) :
    c.graph.callSites n = [] ∧ c.graph.succs n = [] := by
  have hwf : c.graph.WellFormed := hc.wellFormed
  have hwaits : n ∈ c.worklist := by
    by_contra hfree
    exact hnot (hc.mem_processed.2 ⟨hn, by simp [hord], hfree⟩)
  constructor
  · rw [Graph.callSites_eq hn]
    exact hc.unread hwaits hord
  · rw [List.eq_nil_iff_forall_not_mem]
    intro m hm
    exact hc.silent hwaits (hwf.mem_succs.1 hm).2.2

/-! ## The start -/

theorem graph_start (world : σ) (serial : Nat) (entries : List CodeUnit) :
    (start world serial entries).graph =
      (Graph.fresh serial).recordSites rootId (Answers.entrySites entries) := by
  simp only [start, Graph.recordSites, Answers.entrySites, List.foldl_map]

theorem not_calls_start {world : σ} {serial : Nat} {entries : List CodeUnit} {i d : Int} :
    ¬(start world serial entries).graph.Calls i d := by
  rw [graph_start, Graph.calls_recordSites]
  exact Graph.not_calls_fresh

-- The answers to nothing. Of the invariant for known answers, the part that no answer enters
-- is what is needed at the start.
private def mute : Answers :=
  ⟨fun _ => none, fun _ => [], fun _ => false, fun _ => .application, fun _ => none, fun _ => [],
    fun _ _ => none⟩

/-- At the start the root waits, with its sites and no calls. -/
theorem orderly_start (h : Hierarchy σ) (world : σ) (serial : Nat) (entries : List CodeUnit) :
    Orderly h none (start world serial entries).bare := by
  have hstart := reading_start mute false world serial entries
  refine ⟨hstart.obtainable, hstart.thawed, hstart.everywhere, ?_, by simp, hstart.worklist_nodup,
    fun hk => ⟨(hstart.waiting hk).1, (hstart.waiting hk).2.1⟩, hstart.unread,
    fun _ => not_calls_start, hstart.balance⟩
  intro n hn hord
  change (start world serial entries).graph.contains n at hn
  rw [graph_start, (Graph.keeps_recordSites rootId _ _).contains_iff] at hn
  exact absurd hord (not_ordinary_fresh hn)

/-- However far a run gets, what is called are answers. At the start nothing is called. -/
theorem callsAnswers_advance (h : Hierarchy σ) (only : Bool) (world : σ) (serial : Nat)
    (entries : List CodeUnit) (k : Nat) :
    CallsAnswers h (advance h only k (start world serial entries)).graph :=
  (orderly_start h world serial entries).advance_keeps (P := fun g _ => CallsAnswers h g)
    (fun hc hmove hcalls => hcalls.move hc hmove) (cached_start h world serial entries)
    (fun _ _ _ hcall => absurd hcall not_calls_start) only k

/-- The root has its sites from the start, and targets only after it is read. -/
theorem code_start {world : σ} {serial : Nat} {entries : List CodeUnit}
    (hn : (start world serial entries).graph.contains n) (hroot : n.kind = .fakeRoot) :
    (start world serial entries).graph.callSites n = Answers.entrySites entries ∧
      ∀ site, (start world serial entries).graph.targets n site = [] := by
  have hstart := reading_start mute false world serial entries
  constructor
  · rw [Graph.callSites_eq hn, (hstart.wellFormed.kind_eq_fakeRoot_iff hn).1 hroot]
    exact hstart.root_sites
  · intro site
    rw [List.eq_nil_iff_forall_not_mem]
    intro m hm
    have hat := (hstart.wellFormed.mem_targets.1 hm).2.2
    exact not_calls_start (hstart.wellFormed.calls_of_attributes hat)

/-- The root alone waits. -/
theorem worklist_start {world : σ} {serial : Nat} {entries : List CodeUnit}
    (hn : (start world serial entries).graph.contains n) (hroot : n.kind = .fakeRoot) :
    (start world serial entries).worklist = [n] := by
  have hstart := reading_start mute false world serial entries
  have hid := (hstart.wellFormed.kind_eq_fakeRoot_iff hn).1 hroot
  change ((start world serial entries).graph.node? rootId).toList = [n]
  rw [← hid, Graph.contains_iff.1 hn]
  rfl

/-! ## Cut runs -/

theorem advance_of_advance {steps : Nat} (hdone : (advance h only steps c).worklist = []) (k : Nat) :
    advance h only steps (advance h only k c) = advance h only steps c := by
  rw [← advance_add, Nat.add_comm, advance_add, advance_of_done _ hdone]

/-- The whole run continues every state that it goes through. Only nodes that wait there
    are written to afterwards, and the fake world-clinit node. -/
theorem Orderly.later_advance (hc : Orderly h none c.bare) (hcached : Cached h c) {steps : Nat}
    (hdone : (Closure.advance h only steps c).worklist = []) (k : Nat) :
    Later (Open (Closure.advance h only k c).bare) (Closure.advance h only k c).bare
      (Closure.advance h only steps c).bare := by
  rcases hc.advance hcached only k with ⟨hk, hcachedk, _⟩
  have hrest := (hk.advance hcachedk only steps).2.2
  rw [advance_of_advance hdone] at hrest
  exact hrest

/-- All nodes but the fake world-clinit node were read when nothing is left to read. -/
theorem Orderly.nodeCount_of_done (hc : Orderly h none c.bare) (hdone : c.worklist = []) :
    CallGraph.nodeCount c.graph - 1 = c.pops := by
  have hbalance := hc.balance
  change c.graph.live = c.worklist.length + c.pops + 1 at hbalance
  rw [hdone, List.length_nil] at hbalance
  change c.graph.live - 1 = c.pops
  omega

/-- A run that is cut after `k` looks stops where the whole run is after `k` nodes, and is
    reported as cut if the whole run reads more. -/
theorem Orderly.run_of_bounded (hc : Orderly h none c.bare) (hcached : Cached h c) (only : Bool)
    {steps : Nat} (hdone : (Closure.advance h only steps c).worklist = []) (cause : EndCause)
    (k : Nat) :
    run h only steps { polls := some k, cause } c =
      (Closure.advance h only k c,
        if c.pops + k < (Closure.advance h only steps c).pops then some cause else none) := by
  have hk := hc.pops_advance hcached only hdone k
  have hsteps := (hc.pops_advance hcached only hdone steps).2.1 hdone
  rw [Closure.run_of_bounded, Prod.mk.injEq]
  constructor
  · -- More looks than steps make no difference, since the steps are enough for everything.
    by_cases hle : k ≤ steps
    · rw [Nat.min_eq_right hle]
    · have hover : k = steps + (k - steps) := by omega
      rw [Nat.min_eq_left (by omega), hover, advance_add, advance_of_done _ hdone]
  · congr 1
    rw [ne_eq, hk.2, eq_iff_iff]
    omega

/-- The root waits at the start and never again. It is not new when anything is put on
    the worklist later. -/
theorem waits_root_iff {world : σ} {serial : Nat} {entries : List CodeUnit} (k : Nat)
    (hn : (start world serial entries).graph.contains n) (hroot : n.kind = .fakeRoot) :
    n ∈ (advance h only k (start world serial entries)).worklist ↔ k = 0 := by
  have hstart := orderly_start h world serial entries
  have hcached := cached_start h world serial entries
  have hw := worklist_start hn hroot
  constructor
  · intro hwaits
    cases k with
    | zero => rfl
    | succ k =>
        -- Once the root is read only new nodes are put on the worklist.
        rcases hstart.step hcached hw only with ⟨hc₁, hcached₁, hlater, _, hfree⟩
        rw [advance_succ _ hw] at hwaits
        have hlive := hlater.live hstart.wellFormed hc₁.wellFormed (Graph.live_of_contains hn)
        exact absurd (((hc₁.advance hcached₁ only k).2.2.worklist hwaits).resolve_right
          (not_not_intro hlive)) hfree
  · rintro rfl
    rw [advance, hw]
    exact List.mem_cons_self

/-- The root is the first node to be read. Before that it has its sites, without targets. -/
theorem root_advance {world : σ} {serial : Nat} {entries : List CodeUnit} {k : Nat}
    (hn : (advance h only k (start world serial entries)).graph.contains n)
    (hroot : n.kind = .fakeRoot) :
    (n ∈ (advance h only k (start world serial entries)).processed ↔ 0 < k) ∧
      (k = 0 →
        (advance h only k (start world serial entries)).graph.callSites n =
            Answers.entrySites entries ∧
          ∀ site, (advance h only k (start world serial entries)).graph.targets n site = []) := by
  have hstart := orderly_start h world serial entries
  rcases hstart.advance (cached_start h world serial entries) only k with ⟨hk, _, hlater⟩
  have hfirst : (start world serial entries).graph.contains n :=
    hlater.contains_of_fakeRoot hstart.wellFormed hk.wellFormed hn hroot
  constructor
  · rw [hk.mem_processed, waits_root_iff k hfirst hroot, Nat.pos_iff_ne_zero]
    exact ⟨fun hread => hread.2.2, fun hpos => ⟨hn, by simp [hroot], hpos⟩⟩
  · intro hzero
    rw [hzero]
    exact code_start hfirst hroot

/-- The closure over a described hierarchy has read everything unless it was cut short. Its bound
    is the number of references that the description lists, and these are all that it can answer
    with. -/
theorem worklist_described_iff (j : Json) (serial : Nat) (only : Bool) (entries : List CodeUnit)
    (life : Lifetime) :
    (build (.ofJson j) () serial only entries life).1.worklist = [] ↔
      (build (.ofJson j) () serial only entries life).2 = none := by
  rcases Answers.ncard_mentions_ofJson j with ⟨hfinite, hcard⟩
  have hsub : {u | (Hierarchy.ofJson j).Mentions u} ⊆
      {u | (Answers.ofHierarchy (.ofJson j)).Mentions u} :=
    fun _ hu => (Answers.givenBy_ofJson j).mentions hu
  refine worklist_run_iff ?_ life
  exact (orderly_start _ () serial entries).worklist_advance (hfinite.subset hsub)
    ((Set.ncard_le_ncard hsub hfinite).trans hcard) (cached_start _ () serial entries) only
    (Nat.lt_succ_self _)

/-- A run that is cut after `k` looks leaves an exact part of the whole graph. Being cut
    does not spoil anything: the run is at a point that the whole run passes as well,
    and from there on the whole run only writes to nodes that still wait and to the fake
    world-clinit node. So nodes that were read are complete, nodes that wait have no
    code, and nothing is in between. A caller that gives up early can rely on all of
    what it gets.

    The two assumptions are on the hierarchy: it mentions finitely many units, and no
    more than its bound. Without them the steps could run out before the nodes do, and a
    run would end without a cause. -/
theorem build_cut (hfinite : {u | h.Mentions u}.Finite)
    (hcard : {u | h.Mentions u}.ncard ≤ h.bound) (world : σ) (serial : Nat) (only : Bool)
    (entries : List CodeUnit) (cause : EndCause) (k : Nat) :
    let whole := build h world serial only entries .unbounded
    let cut (k : Nat) := build h world serial only entries { polls := some k, cause }
    let g := whole.1.graph
    let part := (cut k).1.graph
    let next := (cut (k + 1)).1.graph
    let read := (cut k).1.processed
    -- The whole run leaves nothing to read, and a run is reported as cut if there are more
    -- nodes than looks, the fake world-clinit node apart.
    (whole.2 = none ∧ whole.1.worklist = [] ∧
      (cut k).2 = if (k : Int) < CallGraph.nodeCount g - 1 then some cause else none) ∧
    -- What is left is well formed and has the first nodes of the whole.
    (part.WellFormed ∧ ∃ m, part.nodes = g.nodes.take m) ∧
    -- As many nodes as looks were read, or all. These have all their sites and targets.
    ((read.length : Int) = min (k : Int) (CallGraph.nodeCount g - 1) ∧
      (cut k).1.pops = read.length ∧
      ∀ n ∈ read, part.callSites n = g.callSites n ∧
        ∀ site, part.targets n site = g.targets n site) ∧
    -- An ordinary node that was not read has no sites and no callees.
    (∀ n, part.contains n → n.kind = .ordinary → n ∉ read →
      part.callSites n = [] ∧ part.succs n = []) ∧
    -- The root is the first to be read. Before that it has its sites, without targets.
    (∀ n, part.contains n → n.kind = .fakeRoot → (n ∈ read ↔ 0 < k) ∧
      (k = 0 → part.callSites n = Answers.entrySites entries ∧
        ∀ site, part.targets n site = [])) ∧
    -- Sites, among them those of the fake world-clinit node, and entrypoints come in the same
    -- order.
    ((∀ n, part.contains n → part.callSites n <+: g.callSites n) ∧
      CallGraph.entrypoints part <+: CallGraph.entrypoints g) ∧
    -- With another look there is no less.
    ((∀ n, part.contains n → next.contains n) ∧
      (∀ a b, part.hasEdge a b → next.hasEdge a b) ∧
      ∀ n site m, m ∈ part.targets n site → m ∈ next.targets n site) := by
  intro whole cut g part next read
  let first := start world serial entries
  let last := advance h only (h.bound + 1) first
  have hstart := orderly_start h world serial entries
  have hcached := cached_start h world serial entries
  have hdone : last.worklist = [] :=
    hstart.worklist_advance hfinite hcard hcached only (Nat.lt_succ_self h.bound)
  have hwhole : whole = (last, none) := run_of_unbounded rfl _ _
  have hcut : ∀ k, cut k =
      (advance h only k first, if k < last.pops then some cause else none) := by
    intro k
    have hrun := hstart.run_of_bounded hcached only hdone cause k
    rw [show first.pops + k = k from Nat.zero_add k] at hrun
    exact hrun
  -- The state of the cut run is one that the whole run goes through.
  rcases hstart.advance hcached only k with ⟨hk, hcachedk, _⟩
  have hlast := (hstart.advance hcached only (h.bound + 1)).1
  have hlater := hstart.later_advance hcached hdone k
  rcases hk.advance hcachedk only 1 with ⟨hnext, _, hlaterNext⟩
  rw [← advance_add] at hnext hlaterNext
  have hcount : CallGraph.nodeCount last.graph - 1 = last.pops := hlast.nodeCount_of_done hdone
  have hpops := (hstart.pops_advance hcached only hdone k).1
  have hwf : (advance h only k first).graph.WellFormed := hk.wellFormed
  -- Each clause compares the state after `k` nodes with the last one or with the next.
  simp only [g, part, next, read, hwhole, hcut]
  refine ⟨⟨trivial, hdone, ?_⟩, ⟨hwf, _, List.prefix_iff_eq_take.1 hlater.nodes⟩,
    ⟨?_, hk.length_processed.symm, fun n hn => hk.code_of_processed hlast hlater hn⟩,
    fun n hn hord hnot => hk.code_of_not_processed hn hord hnot,
    fun n hn hroot => root_advance hn hroot, ⟨?_, ?_⟩, ?_, ?_, ?_⟩
  · rw [hcount]
    simp only [Nat.cast_lt]
  · rw [hk.length_processed, hpops, hcount]
    change ((min (0 + k) last.pops : Nat) : Int) = min (k : Int) last.pops
    omega
  · exact fun n hn => hlater.callSites_prefix hwf hlast.wellFormed hn
  · exact hlater.entrypoints_prefix hwf hlast.wellFormed
  · exact fun n hn => hlaterNext.contains hwf hnext.wellFormed hn
  · exact fun a b hab => hlaterNext.hasEdge hwf hnext.wellFormed hab
  · exact fun n site m hm => hlaterNext.mem_targets hwf hnext.wellFormed hm

/-- After three looks the shapes' entrypoint and the function object are read. The two shapes
    and the initializer are there, and wait. -/
theorem build_cut_shapes :
    let names (l : List Node) := l.map fun n => n.unit.ref.owner ++ "." ++ n.unit.ref.name
    let entries : List CodeUnit := [.named ⟨"app", "main", "()"⟩]
    let whole := build (shapes.hierarchy 6) () 0 false entries .unbounded
    let cut := build (shapes.hierarchy 6) () 0 false entries ⟨some 3, .deadlineExceeded⟩
    cut.2 = some .deadlineExceeded ∧
    names cut.1.processed = ["$synthetic.fakeRoot", "app.main", "app.task"] ∧
    names cut.1.worklist = ["Square.area", "Circle.init", "Circle.area"] ∧
    (∃ m, cut.1.graph.nodes = whole.1.graph.nodes.take m) ∧
    ∀ n ∈ cut.1.processed, cut.1.graph.callSites n = whole.1.graph.callSites n ∧
      ∀ site, cut.1.graph.targets n site = whole.1.graph.targets n site := by
  have hsub : {u | (shapes.hierarchy 6).Mentions u} ⊆ {u | shapes.Mentions u} := fun u hu =>
    (shapes.givenBy_hierarchy 6).mentions hu
  have hfinite := shapes_admissible.finite
  have hcut := build_cut (hfinite.subset hsub)
    ((Set.ncard_le_ncard hsub hfinite).trans shapes_admissible.ncard_le) () 0 false
    [.named ⟨"app", "main", "()"⟩] .deadlineExceeded 3
  exact ⟨by decide +kernel, by decide +kernel, by decide +kernel, hcut.2.1.2, hcut.2.2.1.2.2⟩

end Closure

end CallAtlas
