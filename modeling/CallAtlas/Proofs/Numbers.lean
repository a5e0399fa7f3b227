import CallAtlas.Proofs.Refusals

/-!
# Numbers Are Not Used Again

A node that was removed leaves its slot empty, and the next node takes the slot behind
the last. So a number belongs to one node for ever, and whoever still holds a removed
node holds something that the graph will never again take for one of its own, not even
if another node is made for the same unit and context.

All of this follows from what one edit can do to the nodes. It leaves them alone, or it
makes one node, or it removes one, and `WellFormed.after_cases` says so with every
guard. Two things are carried along a run from there: an empty slot stays empty, and a
node stays until it is removed. Nothing has to be known about edges or sites, in which
an old number might have survived: a well-formed graph mentions live numbers only.

The nodes that come with a run are listed by `arrivals`, which compares the graph
before and after each edit and does not look at what the edit was.

## Main definitions

* `Graph.newcomers`, `Graph.arrivals`: The nodes that come with an edit and with a run.
* `Graph.Vacant`: A number that was handed out and has no node.
* `Graph.Forgotten`: A node that a graph refuses and has no answers about.

## Theorems

* `Graph.WellFormed.after_cases`: What an edit does to the nodes.
* `Graph.arrivals_id`: The nodes of a run have the next numbers in order.
* `Graph.Vacant.afterAll`: A vacant number stays vacant.
* `Graph.contains_afterAll`: A node stays until it is removed.
* `Graph.numbers_not_reused`: Numbers are never used again, and removed nodes never
  come back.
-/

namespace CallAtlas

namespace Graph

variable {g g' : Graph}

/-! ## What an edit does to the nodes -/

/-- The same nodes under the same numbers. -/
def SameNodes (g g' : Graph) : Prop := g'.slots.size = g.slots.size ∧ ∀ i, g'.node? i = g.node? i

theorem Keeps.sameNodes (h : Keeps g g') : SameNodes g g' := ⟨h.size, h.node?⟩

/-- An edit leaves the nodes alone, makes one, or removes one. Everything below is
    derived from these three cases, so the edits are not gone through again. -/
theorem WellFormed.after_cases (hg : WellFormed g) (e : Edit) :
    SameNodes g (g.after e) ∨
      (∃ u c, e = .findOrCreate (some u) (some c) ∧ g.after e = (g.create u c .ordinary).1) ∨
      ∃ n, e = .removeNode (some n) ∧ g.contains n ∧ (g.after e).slots.size = g.slots.size ∧
        ∀ i, (g.after e).node? i = if i = n.id then none else g.node? i := by
  cases he : g.attempt e with
  -- A refused edit changes nothing.
  | error err =>
      rw [Graph.after, he]
      exact Or.inl ⟨rfl, fun _ => rfl⟩
  | ok g' =>
      rw [after_of_attempt he]
      cases e with
      | findOrCreate u c =>
          rw [Graph.attempt] at he
          cases hr : g.findOrCreate u c with
          | error err => rw [hr] at he; exact absurd he (by simp [Except.map])
          | ok r =>
              rw [hr, Except.map, Except.ok.injEq] at he
              subst he
              -- A pair that has a node gives it, and only a new pair makes one.
              rcases findOrCreate_eq_ok_iff.1 hr with ⟨u', c', rfl, rfl, ⟨_, hsame⟩ | ⟨_, _, hmade⟩⟩
              · rw [← hsame]
                exact Or.inl ⟨rfl, fun _ => rfl⟩
              · exact Or.inr (Or.inl ⟨u', c', rfl, (congrArg Prod.fst hmade).symm⟩)
      | registerEntrypoint n =>
          rcases registerEntrypoint_eq_ok_iff.1 he with ⟨s, _, rfl⟩
          refine Or.inl ⟨by rw [slots_markEntrypoint], fun i => ?_⟩
          rw [node?, node?, slot?_markEntrypoint]
      | addEdge src dst =>
          rcases addEdge_eq_ok_iff.1 he with ⟨_, s, _, d, _, rfl⟩
          exact Or.inl (keeps_link g _ _).sameNodes
      | addSite n site =>
          rcases addSite_eq_ok_iff.1 he with ⟨_, s, _, rfl⟩
          exact Or.inl (keeps_recordSite g _ _).sameNodes
      | addCall src site dst =>
          rcases addCall_eq_ok_iff.1 he with ⟨_, s, _, d, _, rfl⟩
          exact Or.inl (keeps_call g _ _ _).sameNodes
      | removeEdge src dst =>
          rcases removeEdge_eq_ok_iff.1 he with ⟨_, s, _, d, _, rfl⟩
          exact Or.inl (keeps_unlink g _ _).sameNodes
      | removeNode n =>
          rcases removeNode_eq_ok_iff.1 he with ⟨_, s, hs, _, rfl⟩
          rcases require_eq_ok_iff.1 hs with ⟨rfl, hslot⟩
          -- Removing a node empties its slot and no other.
          have hpruned := hg.pruned_discard hslot
          refine Or.inr (Or.inr ⟨s.node, rfl, ?_, hpruned.size, fun i => ?_⟩)
          · exact contains_iff.2 (node?_eq_some_iff.2 ⟨s, hslot, rfl⟩)
          · rw [hpruned.node?]
            by_cases hi : i = s.node.id
            · rw [if_neg (by simp [hi]), if_pos hi]
            · rw [if_pos (by simp [hi]), if_neg hi]
      | freeze =>
          rw [Graph.attempt, Except.ok.injEq] at he
          rw [← he]
          exact Or.inl ⟨rfl, fun _ => rfl⟩

/-! ## The nodes that come with a run -/

/-- The nodes that come with an edit. -/
def newcomers (g : Graph) (e : Edit) : List Node := (g.after e).nodes.filter fun n => !g.contains n

/-- The nodes that come with a sequence of edits, in the order in which they come. -/
def arrivals : Graph → List Edit → List Node
  | _, [] => []
  | g, e :: rest => newcomers g e ++ arrivals (g.after e) rest

theorem newcomers_eq_nil (hg : WellFormed g) {e : Edit}
    (h : ∀ n, (g.after e).contains n → g.contains n) : newcomers g e = [] := by
  rw [newcomers, List.filter_eq_nil_iff]
  intro n hn
  simp [h n ((hg.after e).contains_iff_mem_nodes.2 hn)]

/-- The node that comes with an edit is the one that was made. -/
theorem newcomers_of_create (hg : WellFormed g) {e : Edit} {u : CodeUnit} {c : Context}
    (he : g.after e = (g.create u c .ordinary).1) :
    newcomers g e = [(g.create u c .ordinary).2] := by
  have hwf := hg.after e
  have hsingle : ∀ n, n ∈ newcomers g e ↔ n ∈ [(g.create u c .ordinary).2] := by
    intro n
    rw [newcomers, List.mem_filter, ← hwf.contains_iff_mem_nodes, he, contains_create,
      List.mem_singleton, Bool.not_eq_true', ← Bool.not_eq_true]
    -- A node that was there before has not come with the edit.
    constructor
    · rintro ⟨hn | hn, hnew⟩
      · exact absurd hn hnew
      · exact hn
    · rintro rfl
      exact ⟨Or.inr rfl, not_contains_create g u c _⟩
  exact eq_of_ascending (hwf.nodes_ascending.filter _) (List.pairwise_singleton _ _) hsingle

/-- The nodes that come with an edit have the next numbers. -/
theorem newcomers_id (hg : WellFormed g) (e : Edit) :
    (newcomers g e).map Node.id =
        (List.range' g.slots.size (newcomers g e).length).map Int.ofNat ∧
      (g.after e).slots.size = g.slots.size + (newcomers g e).length := by
  rcases hg.after_cases e with ⟨hsize, hnode⟩ | ⟨u, c, _, he⟩ | ⟨n, _, _, hsize, hnode⟩
  · -- Nothing comes with an edit that leaves the nodes alone, or takes one away.
    have hnil : newcomers g e = [] := newcomers_eq_nil hg fun m hm => by
      rw [contains_iff, hnode] at hm
      exact contains_iff.2 hm
    rw [hnil, hsize]
    exact ⟨rfl, rfl⟩
  · rw [newcomers_of_create hg he, he]
    exact ⟨rfl, by simp [create]⟩
  · have hnil : newcomers g e = [] := newcomers_eq_nil hg fun m hm => by
      rw [contains_iff, hnode] at hm
      split at hm
      · exact absurd hm (by simp)
      · exact contains_iff.2 hm
    rw [hnil, hsize]
    exact ⟨rfl, rfl⟩

/-- The nodes that come with a run have the next numbers, in the order in which they
    come. -/
theorem arrivals_id (hg : WellFormed g) (es : List Edit) :
    (arrivals g es).map Node.id = (List.range' g.slots.size (arrivals g es).length).map Int.ofNat ∧
      (g.afterAll es).slots.size = g.slots.size + (arrivals g es).length := by
  -- The numbers of the first edit end where those of the rest begin.
  induction es generalizing g with
  | nil => exact ⟨rfl, rfl⟩
  | cons e rest ih =>
      rcases newcomers_id hg e with ⟨hids, hsize⟩
      rcases ih (hg.after e) with ⟨hrest, hall⟩
      refine ⟨?_, ?_⟩
      · rw [arrivals, List.map_append, hids, hrest, hsize, List.length_append, ← List.map_append,
          List.range'_append_1]
      · rw [arrivals, List.length_append, ← Nat.add_assoc, ← hsize]
        exact hall

/-- Every node of the graph after a run was there before or came with the run. Nodes
    that came and were removed again are among the arrivals too, so the converse fails. -/
theorem contains_or_mem_arrivals (hg : WellFormed g) {es : List Edit} {n : Node}
    (hn : (g.afterAll es).contains n) : g.contains n ∨ n ∈ arrivals g es := by
  induction es generalizing g with
  | nil => exact Or.inl hn
  | cons e rest ih =>
      rw [arrivals, List.mem_append]
      rcases ih (hg.after e) hn with hmid | hrest
      · by_cases hold : g.contains n
        · exact Or.inl hold
        · refine Or.inr (Or.inl (List.mem_filter.2 ⟨?_, by simp [hold]⟩))
          exact (hg.after e).contains_iff_mem_nodes.1 hmid
      · exact Or.inr (Or.inr hrest)

/-- A node that comes with a run has a number beyond those handed out before. A node
    with an older number would have to have been there already. -/
theorem le_id_of_arrived (hg : WellFormed g) {es : List Edit} {n : Node}
    (hn : (g.afterAll es).contains n) (hnew : ¬ g.contains n) : g.slots.size ≤ n.id := by
  have hmem := List.mem_map_of_mem (f := Node.id)
    ((contains_or_mem_arrivals hg hn).resolve_left hnew)
  rw [(arrivals_id hg es).1, List.mem_map] at hmem
  rcases hmem with ⟨k, hk, hid⟩
  rw [← hid]
  exact Int.ofNat_le.2 (List.mem_range'_1.1 hk).1

/-! ## What a run cannot bring back -/

/-- A number that was handed out and has no node. -/
structure Vacant (g : Graph) (i : Int) : Prop where
  nonneg : 0 ≤ i
  below : i < g.slots.size
  node?_eq : g.node? i = none

/-- A vacant number stays vacant. The next number is beyond it, and edits other than
    making a node give no number to any. -/
theorem Vacant.after (hg : WellFormed g) {i : Int} (hi : Vacant g i) (e : Edit) :
    Vacant (g.after e) i := by
  rcases hg.after_cases e with ⟨hsize, hnode⟩ | ⟨u, c, _, he⟩ | ⟨n, _, _, hsize, hnode⟩
  · exact ⟨hi.nonneg, by rw [hsize]; exact hi.below, by rw [hnode]; exact hi.node?_eq⟩
  · have hbelow := hi.below
    refine ⟨hi.nonneg, ?_, ?_⟩
    · rw [he, create, Array.size_push]
      omega
    · rw [he, node?_create, if_neg (by omega)]
      exact hi.node?_eq
  · refine ⟨hi.nonneg, by rw [hsize]; exact hi.below, ?_⟩
    rw [hnode, hi.node?_eq, ite_self]

theorem Vacant.afterAll (hg : WellFormed g) {i : Int} (hi : Vacant g i) (es : List Edit) :
    Vacant (g.afterAll es) i := by
  induction es generalizing g with
  | nil => exact hi
  | cons e rest ih => exact ih (hg.after e) (hi.after hg e)

/-- Only its own removal takes a node away. Any other edit leaves all nodes, adds one
    under a new number, or removes a node that has another number. -/
theorem contains_after (hg : WellFormed g) {n : Node} (hn : g.contains n) {e : Edit}
    (he : e ≠ .removeNode (some n)) : (g.after e).contains n := by
  rw [contains_iff] at hn ⊢
  rcases hg.after_cases e with ⟨_, hnode⟩ | ⟨u, c, _, hmade⟩ | ⟨m, rfl, hm, _, hnode⟩
  · rw [hnode]
    exact hn
  · rw [hmade]
    exact contains_iff.1 (contains_create.2 (Or.inl (contains_iff.2 hn)))
  · -- Another node was removed, and it had another number.
    have hne : n.id ≠ m.id := by
      intro hid
      rw [eq_of_contains (contains_iff.2 hn) hm hid] at he
      exact he rfl
    rw [hnode, if_neg hne]
    exact hn

/-- A node stays until it is removed. -/
theorem contains_afterAll (hg : WellFormed g) {n : Node} (hn : g.contains n) {es : List Edit}
    (hes : .removeNode (some n) ∉ es) : (g.afterAll es).contains n := by
  induction es generalizing g with
  | nil => exact hn
  | cons e rest ih =>
      rw [List.mem_cons, not_or] at hes
      exact ih (hg.after e) (contains_after hg hn (Ne.symm hes.1)) hes.2

/-- The number of a node that was removed is vacant. -/
theorem vacant_of_removeNode (hg : WellFormed g) {n : Node}
    (h : g.removeNode (some n) = .ok g') : Vacant g' n.id := by
  rcases removeNode_eq_ok_iff.1 h with ⟨_, s, hs, _, rfl⟩
  rcases require_eq_ok_iff.1 hs with ⟨hn, hslot⟩
  rw [Option.some.injEq] at hn
  have hpruned := hg.pruned_discard hslot
  rw [hn]
  refine ⟨(slot?_bounds hslot).1, ?_, ?_⟩
  · rw [hpruned.size]
    exact (slot?_bounds hslot).2
  · rw [hpruned.node?, if_neg (by simp)]

/-! ## A node that is not there -/

/-- The graph refuses every edit that names the node, and has no answers about it. -/
structure Forgotten (g : Graph) (n : Node) : Prop where
  not_contains : ¬ CallGraph.contains g n
  node?_eq : CallGraph.node? g n.id = none
  /-- An edit of the structure of a frozen graph fails for that reason, and every other
      for a node that the graph does not have. -/
  refused : ∀ e : Edit, some n ∈ e.arguments →
    if g.frozen ∧ e.isStructural then g.attempt e = .error .frozen
    else ∃ m ∈ e.arguments, g.has m = false ∧ g.attempt e = .error (.nodeNotFound m)
  succs_eq : CallGraph.succs g n = [] ∧ CallGraph.succCount g n = 0
  preds_eq : CallGraph.preds g n = [] ∧ CallGraph.predCount g n = 0
  hasEdge_eq : ∀ m, CallGraph.hasEdge g n m = false ∧ CallGraph.hasEdge g m n = false
  callSites_eq : CallGraph.callSites g n = []
  targets_eq : ∀ site, CallGraph.targets g n site = []
  sitesBetween_eq : ∀ m, CallGraph.sitesBetween g n m = [] ∧ CallGraph.sitesBetween g m n = []
  not_entrypoint : n ∉ CallGraph.entrypoints g

/-- Nothing is known of a node whose number is vacant. It does not matter what the node
    was or which graph it came from. -/
theorem forgotten_of_vacant (hg : WellFormed g) {n : Node} (hn : Vacant g n.id) :
    Forgotten g n := by
  have hnot : ¬ g.contains n := by
    rw [contains_iff, hn.node?_eq]
    simp
  have hslot : g.slotOf? n = none := by
    rw [contains, Bool.not_eq_true, Option.isSome_eq_false_iff, Option.isNone_iff_eq_none] at hnot
    exact hnot
  have hedge : ∀ m, g.hasEdge m n = false := by
    intro m
    rw [← Bool.not_eq_true, hasEdge_iff]
    exact fun h => hnot h.2.1
  have hhas : g.has (some n) = false := by
    rw [← Bool.not_eq_true]
    exact hnot
  -- Every question looks for the slot of the node first, and there is none.
  refine ⟨hnot, hn.node?_eq, ?_, ?_, ?_, fun m => ⟨?_, hedge m⟩, ?_, ?_, fun m => ⟨?_, ?_⟩, ?_⟩
  · intro e he
    by_cases hf : g.frozen ∧ e.isStructural
    · rw [if_pos hf]
      exact attempt_of_frozen hf.1 hf.2
    · rw [if_neg hf]
      refine attempt_of_missing (fun hs => ?_) he hhas
      rw [← Bool.not_eq_true]
      exact fun h => hf ⟨h, hs⟩
  · change g.succs n = [] ∧ g.succCount n = 0
    rw [succs, succCount, hslot]
    exact ⟨rfl, rfl⟩
  · change g.preds n = [] ∧ g.predCount n = 0
    rw [preds, predCount, hslot]
    exact ⟨rfl, rfl⟩
  · change g.hasEdge n m = false
    rw [hasEdge, hslot]
  · exact callSites_of_not_contains hnot
  · intro site
    change g.targets n site = []
    rw [targets, hslot]
    rfl
  · change g.sitesBetween n m = []
    rw [sitesBetween, hslot]
  · change g.sitesBetween m n = []
    rw [sitesBetween, hedge]
    split <;> rfl
  · exact fun h => hnot (hg.mem_nodesWith.1 h).2

/-- A node that is made for a pair without one has the next number, and nothing else. No
    edge, no site and no entrypoint can mention it, since those of a well-formed graph
    mention live numbers, and the next number was not live. -/
theorem bare_of_findOrCreate (hg : WellFormed g) {u : CodeUnit} {c : Context} {n : Node}
    (hnew : g.lookup u c = none) (h : g.findOrCreate (some u) (some c) = .ok (g', n)) :
    n.id = g.slots.size ∧ CallGraph.succs g' n = [] ∧ CallGraph.preds g' n = [] ∧
      CallGraph.callSites g' n = [] ∧ n ∉ CallGraph.entrypoints g' := by
  rcases findOrCreate_eq_ok_iff.1 h with ⟨u', c', hu, hc, ⟨hold, _⟩ | ⟨_, _, hmade⟩⟩
  · rw [Option.some.injEq] at hu hc
    rw [← hu, ← hc, hnew] at hold
    exact absurd hold (by simp)
  · rw [Option.some.injEq] at hu hc
    rw [← hu, ← hc, Prod.ext_iff] at hmade
    rcases hmade with ⟨rfl, rfl⟩
    have hwf := hg.create (hg.find?_index_eq_none hnew)
    have hid : (g.create u c .ordinary).2.id = g.slots.size := rfl
    have hdead : ¬ g.Live g.slots.size := not_live_size g
    have hin : (g.create u c .ordinary).1.contains (g.create u c .ordinary).2 :=
      contains_create.2 (Or.inr rfl)
    -- No edge and no entrypoint of the graph before mentions a number that had no node.
    refine ⟨hid, List.eq_nil_iff_forall_not_mem.2 fun m hm => ?_,
      List.eq_nil_iff_forall_not_mem.2 fun m hm => ?_, ?_, fun hm => ?_⟩
    · have hcalls := (hwf.mem_succs.1 hm).2.2
      rw [calls_create, hid] at hcalls
      exact hdead hcalls.live_left
    · have hcalls := (hwf.mem_preds.1 hm).2.2
      rw [calls_create, hid] at hcalls
      exact hdead (hg.live_right hcalls)
    · refine (callSites_eq hin).trans ?_
      rw [sitesAt_create, hid, sitesAt_size]
    · exact hdead (hg.entry_live (hwf.mem_nodesWith.1 hm).1)

/-- The pair of a node that was removed has no node. It had only the one that is gone. -/
theorem lookup_of_removeNode (hg : WellFormed g) {n : Node} (h : g.removeNode (some n) = .ok g') :
    g'.lookup n.unit n.context = none := by
  have hwf : WellFormed g' := hg.attempt (e := .removeNode (some n)) h
  rcases removeNode_eq_ok_iff.1 h with ⟨_, s, hs, _, rfl⟩
  rcases require_eq_ok_iff.1 hs with ⟨hn, hslot⟩
  rw [Option.some.injEq] at hn
  subst hn
  rw [hwf.lookup_eq_none_iff]
  rintro m hm ⟨hunit, hcontext⟩
  rw [contains_iff, (hg.pruned_discard hslot).node?_eq_some_iff, decide_eq_true_iff] at hm
  -- The graph before had one node for the pair.
  have hfirst := hg.lookup_eq_some_iff.2 ⟨hm.2, hunit, hcontext⟩
  rw [hg.lookup_eq_some_iff.2 ⟨node?_eq_some_iff.2 ⟨s, hslot, rfl⟩, rfl, rfl⟩,
    Option.some.injEq] at hfirst
  exact hm.1 (by rw [hfirst])

theorem after_of_findOrCreate {u : Option CodeUnit} {c : Option Context} {n : Node}
    (h : g.findOrCreate u c = .ok (g', n)) : g.after (.findOrCreate u c) = g' := by
  refine after_of_attempt ?_
  rw [attempt, h]
  rfl

/-- A node that a request makes has the number behind the highest. -/
theorem id_of_findOrCreate (hg : WellFormed g) {u : Option CodeUnit} {c : Option Context} {n : Node}
    (h : g.findOrCreate u c = .ok (g', n)) (hnew : ¬ g.contains n) :
    n.id = g.slots.size ∧ g'.slots.size = g.slots.size + 1 := by
  rcases findOrCreate_eq_ok_iff.1 h with ⟨u', c', _, _, ⟨hold, _⟩ | ⟨_, _, hmade⟩⟩
  · exact absurd (contains_iff.2 (hg.lookup_eq_some_iff.1 hold).1) hnew
  · rw [Prod.ext_iff] at hmade
    rcases hmade with ⟨rfl, rfl⟩
    exact ⟨rfl, Array.size_push _⟩

/-- A request for the pair of a removed node gives a later node. The pair may have been
    made again in the meantime or it is made now, and in both cases the number is a new
    one. -/
theorem id_lt_of_requested (hg : WellFormed g) {n : Node} (hvacant : Vacant g n.id)
    (hpair : g.lookup n.unit n.context = none) {later : List Edit} {m : Node}
    (h : (g.afterAll later).findOrCreate (some n.unit) (some n.context) = .ok (g', m)) :
    n.id < m.id := by
  have hlater := hg.afterAll later
  have hbelow := hvacant.below
  by_cases hm : (g.afterAll later).contains m
  · rcases findOrCreate_eq_ok_iff.1 h with ⟨u, c, hu, hc, ⟨hold, _⟩ | ⟨hnone, hthawed, hmade⟩⟩
    · rw [Option.some.injEq] at hu hc
      rw [← hu, ← hc] at hold
      -- The node has the pair, which no node had when the removed one went.
      have hsame := (hlater.lookup_eq_some_iff.1 hold).2
      have hle := le_id_of_arrived hg hm fun hin => hg.lookup_eq_none_iff.1 hpair m hin hsame
      omega
    · -- A node that is made now was not there, so this case does not come up.
      have hnode : ((g.afterAll later).create u c .ordinary).2 = m := congrArg Prod.snd hmade
      rw [← hnode] at hm
      exact absurd hm (not_contains_create _ u c _)
  · have hid := (id_of_findOrCreate hlater h hm).1
    have hsize := (arrivals_id hg later).2
    omega

/-- Numbers are handed out in order and never again, and a node that was removed is never
    taken for a node of the graph, whatever is made in its place. -/
theorem numbers_not_reused (serial : Nat) (es : List Edit) :
    let g := (fresh serial).afterAll es
    let made := (fresh serial).nodes ++ arrivals (fresh serial) es
    -- All nodes that were ever made are numbered in the order in which they were made.
    (made.map Node.id = (List.range made.length).map Int.ofNat ∧
      made.Pairwise (fun a b => a.id < b.id) ∧ (∀ n, g.contains n → n ∈ made) ∧
      CallGraph.maxId g = made.length - 1) ∧
    (∀ u c g' n, g.findOrCreate u c = .ok (g', n) → ¬ g.contains n →
      n.id = CallGraph.maxId g + 1 ∧ CallGraph.maxId g' = n.id) ∧
    -- A node is there until it is removed, and as long as it is there its pair finds it.
    (∀ n, g.contains n → ∀ later,
      let g' := g.afterAll later
      (.removeNode (some n) ∉ later → g'.contains n) ∧
      (g'.contains n → CallGraph.lookup g' n.unit n.context = some n ∧
        g'.findOrCreate (some n.unit) (some n.context) = .ok (g', n))) ∧
    -- A node that was removed is forgotten for good, and a new one takes its place.
    ∀ n removed, g.removeNode (some n) = .ok removed →
      CallGraph.lookup removed n.unit n.context = none ∧
      ∀ later,
        let g' := removed.afterAll later
        Forgotten g' n ∧
        (g'.frozen = false → ∃ r, g'.findOrCreate (some n.unit) (some n.context) = .ok r) ∧
        ∀ again m, g'.findOrCreate (some n.unit) (some n.context) = .ok (again, m) →
          m ≠ n ∧ n.id < m.id ∧ Forgotten again n ∧
          (CallGraph.lookup g' n.unit n.context = none →
            CallGraph.succs again m = [] ∧ CallGraph.preds again m = [] ∧
            CallGraph.callSites again m = [] ∧ m ∉ CallGraph.entrypoints again) := by
  intro g made
  have hfresh := wellFormed_fresh serial
  have hg : WellFormed g := hfresh.afterAll es
  rcases arrivals_id hfresh es with ⟨hids, hsize⟩
  have hroots : (fresh serial).nodes.map Node.id = (List.range' 0 2).map Int.ofNat := rfl
  have hstart : (fresh serial).slots.size = 2 := rfl
  have hlength : made.length = 2 + (arrivals (fresh serial) es).length := by
    rw [List.length_append]
    rfl
  have hmade : made.map Node.id = (List.range made.length).map Int.ofNat := by
    rw [List.map_append, hroots, hids, hstart, ← List.map_append, hlength, List.range_eq_range',
      ← List.range'_append_1]
  -- The four groups of the statement, in order.
  refine ⟨⟨hmade, ?_, ?_, ?_⟩, ?_, ?_, ?_⟩
  · have hascending : (made.map Node.id).Pairwise (· < ·) := by
      rw [hmade, List.pairwise_map]
      exact List.pairwise_lt_range.imp Int.ofNat_lt.2
    exact List.pairwise_map.1 hascending
  · intro n hn
    rw [List.mem_append, ← hfresh.contains_iff_mem_nodes]
    exact contains_or_mem_arrivals hfresh hn
  · change (g.slots.size : Int) - 1 = _
    rw [hsize, hstart, hlength]
  · intro u c g' n h hnew
    rcases id_of_findOrCreate hg h hnew with ⟨hid, hsize'⟩
    change n.id = (g.slots.size : Int) - 1 + 1 ∧ (g'.slots.size : Int) - 1 = n.id
    omega
  · intro n hn later g'
    refine ⟨contains_afterAll hg hn, fun hn' => ⟨?_, ?_⟩⟩
    · exact (hg.afterAll later).lookup_eq_some_iff.2 ⟨contains_iff.1 hn', rfl, rfl⟩
    · exact (hg.afterAll later).findOrCreate_of_contains hn'
  · intro n removed hremove
    have hwf : WellFormed removed := hg.attempt (e := .removeNode (some n)) hremove
    have hvacant := vacant_of_removeNode hg hremove
    have hpair := lookup_of_removeNode hg hremove
    refine ⟨hpair, fun later => ?_⟩
    have hlater := hwf.afterAll later
    have hstill := hvacant.afterAll hwf later
    refine ⟨forgotten_of_vacant hlater hstill, fun hthawed => ?_, fun again m h => ?_⟩
    · cases hlookup : (removed.afterAll later).lookup n.unit n.context with
      | some m =>
          exact ⟨_, findOrCreate_eq_ok_iff.2 ⟨_, _, rfl, rfl, Or.inl ⟨hlookup, rfl⟩⟩⟩
      | none =>
          exact ⟨_, findOrCreate_eq_ok_iff.2 ⟨_, _, rfl, rfl, Or.inr ⟨hlookup, hthawed, rfl⟩⟩⟩
    · have hlt := id_lt_of_requested hwf hvacant hpair h
      refine ⟨fun hsame => absurd hlt (by rw [hsame]; omega), hlt, ?_, fun hnone => ?_⟩
      · rw [← after_of_findOrCreate h]
        exact forgotten_of_vacant (hlater.after _) (hstill.after hlater _)
      · exact (bare_of_findOrCreate hlater hnone h).2

end Graph

end CallAtlas
