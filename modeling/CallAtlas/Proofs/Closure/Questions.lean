import CallAtlas.Proofs.Closure.Ledger

/-!
# Nothing Is Asked Twice

This module gives the questions of a run exactly, in their order, and not only how many
there are. Questions about code follow the nodes as they are read. Questions about
candidates follow the sites of these nodes, with what was met before left out, and so do
questions about function objects. Questions about initializers follow the nodes that were
made for calls.

The order of reading is the list of the nodes on top of the worklist, one for each step.
No node is in it twice, since a node that was read does not come to wait again, and a run
that is cut short has the first part of it. What is left is to put together what each node
adds.

Of the hierarchy it is assumed that the code of a node is the same whenever it is asked
for. Its other answers may change from one question to the next.

## Main definitions

* `Closure.readOrder`: The nodes in the order in which they are read.
* `Closure.visits`: The sites of these nodes.
* `Closure.Accounted`: All questions of a run.

## Theorems

* `Closure.Orderly.readOrder`: No node is read twice.
* `Closure.readOrder_prefix_of_done`: A run that is cut short reads the first nodes.
* `Closure.accounted_advance`: The questions of the first part of a run.
* `Closure.build_asks_once`: The questions of all runs.
-/

namespace CallAtlas

namespace Closure

variable {σ : Type} {h : Hierarchy σ} {only : Bool} {n : Node} {c : Closure σ} {read : List Node}

/-! ## The order of reading -/

/-- The nodes that up to `k` steps read: at each the one on top of the worklist. -/
def readOrder (h : Hierarchy σ) (only : Bool) (k : Nat) (c : Closure σ) : List Node :=
  (List.range k).flatMap fun j => (advance h only j c).worklist.head?.toList

theorem readOrder_succ (k : Nat) (c : Closure σ) : readOrder h only (k + 1) c =
    readOrder h only k c ++ (advance h only k c).worklist.head?.toList := by
  rw [readOrder, List.range_succ, List.flatMap_append, List.flatMap_singleton]
  rfl

/-- Further steps read nothing once nothing is left. -/
theorem readOrder_of_done {k : Nat} (hdone : (advance h only k c).worklist = []) (j : Nat) :
    readOrder h only (k + j) c = readOrder h only k c := by
  induction j with
  | zero => rfl
  | succ j ih =>
      rw [← Nat.add_assoc, readOrder_succ, ih, advance_add, advance_of_done _ hdone, hdone]
      exact List.append_nil _

/-- More steps read more nodes, behind those that fewer steps read. -/
theorem readOrder_prefix_add (k j : Nat) (c : Closure σ) :
    readOrder h only k c <+: readOrder h only (k + j) c := by
  induction j with
  | zero => exact List.prefix_refl _
  | succ j ih =>
      rw [← Nat.add_assoc, readOrder_succ]
      exact ih.trans (List.prefix_append _ _)

/-- Every run reads the first nodes of one that leaves nothing to read. -/
theorem readOrder_prefix_of_done {steps : Nat} (hdone : (advance h only steps c).worklist = [])
    (k : Nat) : readOrder h only k c <+: readOrder h only steps c := by
  rcases Nat.le_total k steps with hle | hle
  · rcases Nat.exists_eq_add_of_le hle with ⟨j, rfl⟩
    exact readOrder_prefix_add k j c
  · rcases Nat.exists_eq_add_of_le hle with ⟨j, rfl⟩
    rw [readOrder_of_done hdone]

/-- One step more, from where the steps before it have led. -/
theorem advance_one_more {rest : List Node} {k : Nat}
    (hw : (advance h only k c).worklist = n :: rest) :
    advance h only (k + 1) c = step h only { advance h only k c with worklist := rest } n := by
  rw [advance_add, advance_succ 0 hw, advance]

/-- No node is read twice, and the nodes that were read do not wait. A node on top of
    the worklist waits, and a node that was read never does again, so the two are
    different. -/
theorem Orderly.readOrder (hc : Orderly h none c.bare) (hcached : Cached h c) (only : Bool)
    (k : Nat) :
    (readOrder h only k c).Nodup ∧
      (∀ m ∈ Closure.readOrder h only k c, m ∈ (Closure.advance h only k c).processed) ∧
      (Closure.advance h only k c).pops = c.pops + (Closure.readOrder h only k c).length := by
  induction k with
  | zero => exact ⟨List.nodup_nil, fun m hm => absurd hm List.not_mem_nil, rfl⟩
  | succ k ih =>
      rcases ih with ⟨hnodup, hread, hpops⟩
      rcases hc.advance hcached only k with ⟨hk, hcachedk, _⟩
      rw [readOrder_succ]
      cases hw : (Closure.advance h only k c).worklist with
      | nil =>
          rw [advance_add, advance_of_done _ hw, List.head?_nil, Option.toList_none,
            List.append_nil]
          exact ⟨hnodup, hread, hpops⟩
      | cons n rest =>
          rcases hk.step hcachedk hw only with ⟨hnext, _, hlater, hpop, hfree⟩
          rw [advance_one_more hw, List.head?_cons, Option.toList_some]
          have hwaits : n ∈ (Closure.advance h only k c).worklist := by
            rw [hw]
            exact List.mem_cons_self
          rcases hk.waiting hwaits with ⟨hn, hkind⟩
          refine ⟨?_, ?_, ?_⟩
          · refine List.nodup_append.2 ⟨hnodup, List.nodup_singleton n, ?_⟩
            intro a ha b hb hab
            rw [hab, List.mem_singleton.1 hb] at ha
            exact (hk.mem_processed.1 (hread n ha)).2.2 hwaits
          · intro m hm
            rw [hnext.mem_processed]
            rcases List.mem_append.1 hm with hm | hm
            · rcases hk.mem_processed.1 (hread m hm) with ⟨hin, hmkind, hgone⟩
              refine ⟨hlater.contains hk.wellFormed hnext.wellFormed hin, hmkind, fun hback => ?_⟩
              -- What comes to wait is new.
              exact hgone ((hlater.worklist hback).resolve_right
                (not_not_intro (Graph.live_of_contains hin)))
            · rw [List.mem_singleton.1 hm]
              exact ⟨hlater.contains hk.wellFormed hnext.wellFormed hn, hkind, hfree⟩
          · rw [hpop, hpops, List.length_append, List.length_singleton, Nat.add_assoc]

/-- The nodes that were read and those that wait are all but the fake world-clinit node.
    Nodes that were read are counted by their number alone, and there are as many of
    them as there can be. -/
theorem Orderly.perm_readOrder (hc : Orderly h none c.bare) (hread : read.Nodup)
    (hsub : ∀ m ∈ read, m ∈ c.processed) (hpops : c.pops = read.length) :
    (read ++ c.worklist).Nodup ∧
      (read ++ c.worklist).Perm (c.graph.nodes.filter fun n => n.kind ≠ .fakeWorldClinit) := by
  have hwf : c.graph.WellFormed := hc.wellFormed
  -- As many nodes were processed as were read, so these are all.
  have hperm : read.Perm c.processed :=
    (List.subperm_of_subset hread hsub).perm_of_length_le (by rw [hc.length_processed, hpops])
  have hnodup : (read ++ c.worklist).Nodup := by
    refine List.nodup_append.2 ⟨hread, hc.worklist_nodup, ?_⟩
    intro a ha b hb hab
    rw [← hab] at hb
    exact (hc.mem_processed.1 (hsub a ha)).2.2 hb
  refine ⟨hnodup, (List.perm_ext_iff_of_nodup hnodup
    ((nodup_of_ascending hwf.nodes_ascending).filter _)).2 fun m => ?_⟩
  rw [List.mem_append, hperm.mem_iff, hc.mem_processed, List.mem_filter, decide_eq_true_iff,
    ← hwf.contains_iff_mem_nodes]
  constructor
  · rintro (⟨hm, hkind, _⟩ | hm)
    · exact ⟨hm, hkind⟩
    · exact hc.waiting hm
  · rintro ⟨hm, hkind⟩
    by_cases hwaits : m ∈ c.worklist
    · exact Or.inr hwaits
    · exact Or.inl ⟨hm, hkind, hwaits⟩

/-! ## Runs -/

/-- The sites in the code of a node: the root has the entrypoints. -/
def codeOf (sites : Node → List CallSite) (entries : List CodeUnit) (n : Node) : List CallSite :=
  match n.kind with
  | .fakeRoot => Answers.entrySites entries
  | .fakeWorldClinit => []
  | .ordinary => sites n

/-- The sites of some nodes, each with its node, in the order of reading. -/
def visits (sites : Node → List CallSite) (entries : List CodeUnit) (read : List Node) :
    List (Node × CallSite) :=
  read.flatMap fun n => (codeOf sites entries n).map fun site => (n, site)

/-- All questions of a run that has read some nodes, in order, and the counts that go with them. -/
structure Accounted (sites : Node → List CallSite) (entries : List CodeUnit) (read : List Node)
    (c : Closure σ) : Prop where
  pops : c.pops = read.length
  /-- No node waits twice, and none that was read waits. -/
  nodup : (read ++ c.worklist).Nodup
  /-- All nodes but the fake world-clinit node were read or wait. -/
  nodes : (read ++ c.worklist).Perm (c.graph.nodes.filter fun n => n.kind ≠ .fakeWorldClinit)
  balance : (c.pops : Int) + c.worklist.length = CallGraph.nodeCount c.graph - 1
  /-- The code of each ordinary node that was read was asked for once. -/
  code : c.questions .code = (read.filter fun n => n.kind = .ordinary).map .callSites
  /-- The candidates for each target and dispatch kind were asked for once. -/
  candidates : c.questions .candidates =
    (calledKeys (visits sites entries read)).eraseDups.map .about
  /-- The function object of each site of a node was asked for once. -/
  functionObjects : c.questions .functionObject =
    (objectSites (visits sites entries read)).eraseDups.map fun p => .wrapper p.1 p.2
  /-- The initializer for each node that was made for a call was asked for once. -/
  initializers : c.questions .initializer = c.graph.callees.map fun n => .initializer n.unit
  split : c.created = c.graph.callees.length + c.initializers
  created : (c.created : Int) = CallGraph.nodeCount c.graph - 2

/-- At the start nothing was read and nothing was asked. -/
theorem tally_start (h : Hierarchy σ) (world : σ) (serial : Nat) (entries : List CodeUnit) :
    Tally h none [] [] (start world serial entries) := by
  have hwf : (start world serial entries).graph.WellFormed :=
    (orderly_start h world serial entries).wellFormed
  -- The roots are not ordinary, so no node was made for a call.
  have hcallees : (start world serial entries).graph.callees = [] := by
    rw [List.eq_nil_iff_forall_not_mem]
    intro m hm
    rcases hwf.mem_callees.1 hm with ⟨hin, hord, _⟩
    rw [graph_start, (Graph.keeps_recordSites Graph.rootId _ _).contains_iff] at hin
    exact not_ordinary_fresh hin hord
  have hlive : (start world serial entries).graph.live = 2 := by
    rw [graph_start, (Graph.keeps_recordSites Graph.rootId _ _).live]
    rfl
  refine ⟨orderly_start h world serial entries, cached_start h world serial entries,
    ⟨?_, ?_, ?_⟩, fun p hp => absurd hp List.not_mem_nil, rfl, rfl, rfl, rfl, rfl⟩
  · rw [hcallees]
    rfl
  · rw [hcallees]
    rfl
  · rw [hlive]
    rfl

section Code

-- The code of a node is the same whenever it is asked for.
variable {sites : Node → List CallSite} (hsites : ∀ n w, ((h.callSites n).run w).1 = sites n)
include hsites

/-- What is read of a node is its code. The root is read first, when it has the entrypoints. -/
theorem sitesOf_advance {world : σ} {serial : Nat} {entries : List CodeUnit} {k : Nat}
    {rest : List Node}
    (hw : (advance h only k (start world serial entries)).worklist = n :: rest) :
    ((advance h only k (start world serial entries)).sitesOf h n).1 = codeOf sites entries n := by
  have hstart := orderly_start h world serial entries
  rcases hstart.advance (cached_start h world serial entries) only k with ⟨hk, _, hlater⟩
  have hwaits : n ∈ (advance h only k (start world serial entries)).worklist := by
    rw [hw]
    exact List.mem_cons_self
  unfold sitesOf codeOf
  cases hkind : n.kind with
  | fakeWorldClinit => rfl
  | ordinary => exact hsites n _
  | fakeRoot =>
      -- The root has its own sites only at the start, but that is when it is read.
      have hfirst : (start world serial entries).graph.contains n :=
        hlater.contains_of_fakeRoot hstart.wellFormed hk.wellFormed (hk.waiting hwaits).1 hkind
      obtain rfl : k = 0 := (waits_root_iff k hfirst hkind).1 hwaits
      exact (code_start hfirst hkind).1

/-- What was asked along a run. The induction is on the number of steps, and the sites
    visited grow by the code of the node that each step reads. -/
theorem tally_advance (only : Bool) (world : σ) (serial : Nat) (entries : List CodeUnit) (k : Nat) :
    Tally h none (readOrder h only k (start world serial entries))
      (visits sites entries (readOrder h only k (start world serial entries)))
      (advance h only k (start world serial entries)) := by
  induction k with
  | zero => exact tally_start h world serial entries
  | succ k ih =>
      rw [readOrder_succ]
      cases hw : (advance h only k (start world serial entries)).worklist with
      | nil =>
          rw [advance_add, advance_of_done _ hw, List.head?_nil, Option.toList_none,
            List.append_nil]
          exact ih
      -- The last step reads one node, and the sites visited grow by its code.
      | cons n rest =>
          have hstep := ih.step hw only
          rw [sitesOf_advance hsites hw] at hstep
          rw [advance_one_more hw, List.head?_cons, Option.toList_some, visits,
            List.flatMap_append, List.flatMap_singleton]
          exact hstep

/-- The questions of the first part of a run, all of them and in order. The nodes that
    were read determine them. -/
theorem accounted_advance (only : Bool) (world : σ) (serial : Nat) (entries : List CodeUnit)
    (k : Nat) :
    Accounted sites entries (readOrder h only k (start world serial entries))
      (advance h only k (start world serial entries)) := by
  have htally := tally_advance hsites only world serial entries k
  rcases (orderly_start h world serial entries).readOrder (cached_start h world serial entries)
    only k with ⟨hnodup, hread, hpops⟩
  have hpops := hpops.trans (Nat.zero_add _)
  -- Every node but the fake world-clinit node was read or waits, and none is counted twice.
  rcases htally.orderly.perm_readOrder hnodup hread hpops with ⟨hall, hperm⟩
  have hbalance := htally.orderly.balance
  have hcreated := htally.accounts.created
  refine ⟨hpops, hall, hperm, ?_, htally.ledger.code, htally.ledger.candidates,
    htally.ledger.wrappers, htally.accounts.asked, htally.accounts.split, ?_⟩
  · change _ = (advance h only k (start world serial entries)).graph.live - 1
    change (advance h only k (start world serial entries)).graph.live =
      (advance h only k (start world serial entries)).worklist.length +
        (advance h only k (start world serial entries)).pops + 1 at hbalance
    omega
  · change _ = (advance h only k (start world serial entries)).graph.live - 2
    omega

end Code

/-- Nothing is asked twice. A run that is not cut short reads every node but the fake
    world-clinit node, in some order. Every run reads the first nodes in this order, as many
    as it takes off the worklist, and asks what these nodes and their sites give rise to. -/
theorem build_asks_once (hfinite : {u | h.Mentions u}.Finite)
    (hcard : {u | h.Mentions u}.ncard ≤ h.bound) {sites : Node → List CallSite}
    (hsites : ∀ n w, ((h.callSites n).run w).1 = sites n) (world : σ) (serial : Nat) (only : Bool)
    (entries : List CodeUnit) :
    let whole := build h world serial only entries .unbounded
    ∃ read : List Node,
      (whole.2 = none ∧ whole.1.worklist = [] ∧
        (whole.1.pops : Int) = CallGraph.nodeCount whole.1.graph - 1 ∧
        Accounted sites entries read whole.1) ∧
      ∀ life, let cut := (build h world serial only entries life).1
        Accounted sites entries (read.take cut.pops) cut := by
  intro whole
  have hdone := (orderly_start h world serial entries).worklist_advance hfinite hcard
    (cached_start h world serial entries) only (Nat.lt_succ_self h.bound)
  have hwhole : whole = (advance h only (h.bound + 1) (start world serial entries), none) :=
    run_of_unbounded rfl _ _
  have hlast := accounted_advance hsites only world serial entries (h.bound + 1)
  refine ⟨readOrder h only (h.bound + 1) (start world serial entries), ?_, ?_⟩
  · rw [hwhole]
    refine ⟨rfl, hdone, ?_, hlast⟩
    have hbalance := hlast.balance
    rw [hdone, List.length_nil, Nat.cast_zero, add_zero] at hbalance
    exact hbalance
  · intro life cut
    -- A run that is cut is the whole run stopped after some steps.
    rcases exists_run_eq_advance h only (h.bound + 1) life (start world serial entries) with ⟨k, hk⟩
    have hcut : cut = advance h only k (start world serial entries) := hk
    have hpart := accounted_advance hsites only world serial entries k
    -- What it has read is a first part of all that is read.
    have hfirst := List.prefix_iff_eq_take.1 (readOrder_prefix_of_done hdone k)
    rw [hcut, hpart.pops, ← hfirst]
    exact hpart

/-- The shapes' entrypoint has the same site twice, and its function object is asked for once.
    The entrypoint itself is asked for once as the root calls it and once as a shape does,
    with another dispatch kind. -/
theorem build_asks_once_shapes :
    let main : MethodRef := ⟨"app", "main", "()"⟩
    let area : MethodRef := ⟨"Shape", "area", "()"⟩
    let h := shapes.hierarchy 6
    ({u | h.Mentions u}.Finite ∧ {u | h.Mentions u}.ncard ≤ h.bound ∧
      ∀ n w, ((h.callSites n).run w).1 = shapes.callSites n.unit) ∧
    (build h () 0 false [.named main] .unbounded).1.questions .candidates =
      [.single main, .overrides area, .single main] ∧
    ∃ read : List Node,
      (build h () 0 false [.named main] .unbounded).1.pops = read.length ∧
      read.Nodup ∧
      (build h () 0 false [.named main] .unbounded).1.questions .functionObject =
        (objectSites (visits (fun n => shapes.callSites n.unit) [.named main] read)).eraseDups.map
          fun p => .wrapper p.1 p.2 := by
  intro main area h
  have hsub : {u | h.Mentions u} ⊆ {u | shapes.Mentions u} := fun u hu =>
    (shapes.givenBy_hierarchy 6).mentions hu
  have hfinite := shapes_admissible.finite.subset hsub
  have hcard : {u | h.Mentions u}.ncard ≤ h.bound :=
    (Set.ncard_le_ncard hsub shapes_admissible.finite).trans shapes_admissible.ncard_le
  have hsites := (shapes.givenBy_hierarchy 6).callSites
  rcases build_asks_once hfinite hcard hsites () 0 false [.named main] with
    ⟨read, ⟨_, _, _, hread⟩, _⟩
  exact ⟨⟨hfinite, hcard, hsites⟩, by decide +kernel, read, hread.pops,
    (List.nodup_append.1 hread.nodup).1, hread.functionObjects⟩

end Closure

end CallAtlas
