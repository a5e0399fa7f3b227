import CallAtlas.Proofs.WellFormed

/-!
# Removing Edges and Nodes

Removing an edge and removing a node are one operation at heart: some numbers keep
their slot, some edges stay, and each slot that stays forgets the edges that do
not. `Pruned` states this for any choice of numbers and edges, so that what it
gives is proved once. Removals compose, since keeping and showing compose, and this
is what later makes the order of removals irrelevant.

Neither edit is written that way. Removing an edge touches two slots and stops
short if there is no edge; removing a node walks over the callees and callers that
the node names. Both do what `Pruned` says only because the two ends of an edge
agree and a target is always a callee, so that a slot which the edit does not
touch has nothing to forget.

The counter is where a loop matters. The edges at a node are its callees and those
callers that are not the node itself, which counts a loop once.

## Main definitions

* `Slot.restrict`: A slot that keeps some of its edges.
* `Graph.Pruned`: One graph holds the kept slots of another, restricted.

## Theorems

* `Graph.Pruned.trans`: Removals compose.
* `Graph.Pruned.calls_iff`: The edges that stay are those that are shown.
* `Graph.WellFormed.pruned_unlink`: Removing an edge hides that edge.
* `Graph.WellFormed.pruned_discard`: Removing a node hides what is at it.
* `Graph.WellFormed.unlink`, `Graph.WellFormed.discard`: Removals keep a graph well
  formed.
-/

namespace CallAtlas

/-- The slot numbered `i` with the edges that are still shown. -/
def Slot.restrict (shows : Int → Int → Bool) (i : Int) (s : Slot) : Slot :=
  { s with
    succs := s.succs.filter (shows i)
    preds := s.preds.filter fun p => shows p i
    targets := s.targets.mapValues (·.filter (shows i)) }

theorem Slot.restrict_restrict (p q : Int → Int → Bool) (i : Int) (s : Slot) :
    (s.restrict p i).restrict q i = s.restrict (fun a b => p a b && q a b) i := by
  simp only [Slot.restrict, IdSet.filter_filter, Table.mapValues_mapValues]

/-- Hiding one edge touches the slots at its ends. This is what removing an edge writes,
    so its slots are those of a restriction. -/
theorem Slot.restrict_cut (src dst i : Int) (s : Slot) :
    s.restrict (fun a b => !(a = src && b = dst)) i =
      { s with
        succs := if i = src then s.succs.erase dst else s.succs
        preds := if i = dst then s.preds.erase src else s.preds
        targets := if i = src then s.targets.mapValues (·.erase dst) else s.targets } := by
  -- Callees and targets are filtered by the second number of an edge.
  have hfilter : ∀ t : IdSet, t.filter (fun d => !(decide (i = src) && decide (d = dst))) =
      if i = src then t.erase dst else t := by
    intro t
    by_cases hi : i = src
    · rw [if_pos hi]
      apply IdSet.ext
      intro x
      simp [hi]
    · rw [if_neg hi]
      exact IdSet.filter_eq_self fun x _ => by simp [hi]
  -- Callers are filtered by the first.
  have hpreds : s.preds.filter (fun p => !(decide (p = src) && decide (i = dst))) =
      if i = dst then s.preds.erase src else s.preds := by
    by_cases hi : i = dst
    · rw [if_pos hi]
      apply IdSet.ext
      intro x
      simp [hi]
    · rw [if_neg hi]
      exact IdSet.filter_eq_self fun x _ => by simp [hi]
  have htargets : s.targets.mapValues (·.filter fun d => !(decide (i = src) && decide (d = dst))) =
      if i = src then s.targets.mapValues (·.erase dst) else s.targets := by
    simp only [hfilter]
    by_cases hi : i = src
    · simp only [if_pos hi]
    · simp only [if_neg hi, Table.mapValues_id]
  rw [Slot.restrict, hfilter, hpreds, htargets]

namespace Graph

/-- The graph `g'` holds the slots of `g` that are kept, with the edges that are shown.
    An edge is shown only if both of its ends are kept. -/
structure Pruned (keeps : Int → Bool) (shows : Int → Int → Bool) (g g' : Graph) : Prop where
  ends : ∀ {a b}, shows a b → keeps a ∧ keeps b
  serial : g'.serial = g.serial
  size : g'.slots.size = g.slots.size
  frozen : g'.frozen = g.frozen
  slot? : ∀ i, g'.slot? i = if keeps i then (g.slot? i).map (Slot.restrict shows i) else none
  entrypoints : g'.entrypoints = g.entrypoints.filter keeps

namespace Pruned

variable {keeps keeps' : Int → Bool} {shows shows' : Int → Int → Bool} {g g' g'' : Graph}

/-- Nothing need be removed. -/
theorem refl (g : Graph) : Pruned (fun _ => true) (fun _ _ => true) g g where
  ends _ := ⟨rfl, rfl⟩
  serial := rfl
  size := rfl
  frozen := rfl
  slot? i := by
    have hall : Slot.restrict (fun _ _ => true) i = id := by
      funext s
      simp only [Slot.restrict, IdSet.filter_eq_self (fun _ _ => rfl), Table.mapValues_id, id]
    rw [if_pos rfl, hall, Option.map_id, id]
  entrypoints := by simp

/-- Removals compose. A sequence of them is one removal, which keeps and shows what all
    of them do. -/
theorem trans (h : Pruned keeps shows g g') (h' : Pruned keeps' shows' g' g'') :
    Pruned (fun i => keeps i && keeps' i) (fun a b => shows a b && shows' a b) g g'' where
  ends := by
    intro a b hab
    rw [Bool.and_eq_true] at hab
    simp only [Bool.and_eq_true]
    exact ⟨⟨(h.ends hab.1).1, (h'.ends hab.2).1⟩, ⟨(h.ends hab.1).2, (h'.ends hab.2).2⟩⟩
  serial := h'.serial.trans h.serial
  size := h'.size.trans h.size
  frozen := h'.frozen.trans h.frozen
  slot? := by
    intro i
    rw [h'.slot?, h.slot?]
    -- A slot is left if both removals leave it.
    by_cases hk : keeps i
    · by_cases hk' : keeps' i
      · rw [if_pos hk', if_pos hk, if_pos (by simp [hk, hk']), Option.map_map]
        congr 1
        funext s
        exact s.restrict_restrict shows shows' i
      · rw [if_neg hk', if_neg (by simp [hk'])]
    · rw [if_neg hk, if_neg (c := keeps i && keeps' i) (by simp [hk]), Option.map_none, ite_self]
  entrypoints := by
    rw [h'.entrypoints, h.entrypoints, List.filter_filter]
    congr 1
    funext i
    rw [Bool.and_comm]

/-- The nodes that stay are those that are kept. -/
theorem node? (h : Pruned keeps shows g g') (i : Int) :
    g'.node? i = if keeps i then g.node? i else none := by
  rw [Graph.node?, Graph.node?, h.slot?]
  by_cases hk : keeps i
  · rw [if_pos hk, if_pos hk, Option.map_map]
    rfl
  · rw [if_neg hk, if_neg hk, Option.map_none]

theorem node?_eq_some_iff (h : Pruned keeps shows g g') {i : Int} {n : Node} :
    g'.node? i = some n ↔ keeps i ∧ g.node? i = some n := by
  rw [h.node?]
  by_cases hk : keeps i
  · simp [hk]
  · simp [hk]

theorem live_iff (h : Pruned keeps shows g g') (i : Int) : g'.Live i ↔ keeps i ∧ g.Live i := by
  rw [live_iff_node?, live_iff_node?, h.node?]
  by_cases hk : keeps i
  · simp [hk]
  · simp [hk]

/-- The edges that stay are those that are shown. -/
theorem calls_iff (h : Pruned keeps shows g g') {a b : Int} :
    g'.Calls a b ↔ g.Calls a b ∧ shows a b := by
  unfold Calls
  rw [h.slot?]
  by_cases hk : keeps a
  · rw [if_pos hk]
    cases g.slot? a with
    | none => simp
    | some s => simp [Slot.restrict]
  · -- The caller is gone, so the edge is not shown either.
    rw [if_neg hk]
    constructor
    · rintro ⟨s, hs, _⟩
      exact absurd hs (by simp)
    · rintro ⟨_, hab⟩
      exact absurd (h.ends hab).1 hk

/-- Callers are read off another slot than callees, and the same edges are hidden there. -/
theorem calledBy_iff (h : Pruned keeps shows g g') {a b : Int} :
    g'.CalledBy b a ↔ g.CalledBy b a ∧ shows a b := by
  unfold CalledBy
  rw [h.slot?]
  by_cases hk : keeps b
  · rw [if_pos hk]
    cases g.slot? b with
    | none => simp
    | some s => simp [Slot.restrict]
  · -- A removed node has no callers left, and no edge to it is shown.
    rw [if_neg hk]
    constructor
    · rintro ⟨s, hs, _⟩
      exact absurd hs (by simp)
    · rintro ⟨_, hab⟩
      exact absurd (h.ends hab).2 hk

/-- The numbers of nodes are not given out anew after a removal. -/
theorem numbered (h : Pruned keeps shows g g') (hg : Numbered g) : Numbered g' where
  id_eq hn := hg.id_eq (h.node?_eq_some_iff.1 hn).2
  serial_eq hn := by
    rw [h.serial]
    exact hg.serial_eq (h.node?_eq_some_iff.1 hn).2

theorem rooted (h : Pruned keeps shows g g') (hg : Rooted g) (h0 : keeps rootId)
    (h1 : keeps clinitId) : Rooted g' where
  root := by rw [h.node?, if_pos h0, h.serial]; exact hg.root
  clinit := by rw [h.node?, if_pos h1, h.serial]; exact hg.clinit
  ordinary hn := hg.ordinary (h.node?_eq_some_iff.1 hn).2

/-- Sites stay recorded, and their targets are hidden along with the edges to them. -/
theorem attributed (h : Pruned keeps shows g g') (hg : Attributed g) : Attributed g' where
  keys_eq := by
    intro i s' hs'
    rw [h.slot?] at hs'
    split at hs'
    · rcases Option.map_eq_some_iff.1 hs' with ⟨s, hs, rfl⟩
      simp only [Slot.restrict, Table.keys_mapValues]
      exact hg.keys_eq hs
    · exact absurd hs' (by simp)
  target_called := by
    intro i s' site t' d hs' ht' hd
    rw [h.slot?] at hs'
    split at hs'
    · -- A target that is left was a target before, and the edge to it is left too.
      rcases Option.map_eq_some_iff.1 hs' with ⟨s, hs, rfl⟩
      simp only [Slot.restrict, Table.find?_mapValues] at ht'
      rcases Option.map_eq_some_iff.1 ht' with ⟨t, ht, rfl⟩
      rw [IdSet.mem_filter] at hd
      exact IdSet.mem_filter.2 ⟨hg.target_called hs ht hd.1, hd.2⟩
    · exact absurd hs' (by simp)

/-- Of the edges the counter alone is left to be compared: it is lowered by as many as
    are gone, which depends on the removal. -/
theorem mirrored (h : Pruned keeps shows g g') (hg : Mirrored g)
    (hedges : g'.edges = g'.edgeSet.ncard) : Mirrored g' where
  calls_iff := by
    intro a b
    rw [h.calls_iff, h.calledBy_iff, hg.calls_iff]
  edges_eq := hedges

theorem entered (h : Pruned keeps shows g g') (hg : Entered g)
    (hset : ∀ {i}, i ∈ g'.entrySet ↔ i ∈ g.entrySet ∧ keeps i) : Entered g' where
  entry_live := by
    intro i hi
    rw [h.entrypoints, List.mem_filter] at hi
    exact (h.live_iff i).2 ⟨hi.2, hg.entry_live hi.1⟩
  entry_nodup := by
    rw [h.entrypoints]
    exact hg.entry_nodup.filter _
  mem_entrySet := by
    intro i
    rw [hset, h.entrypoints, List.mem_filter, hg.mem_entrySet]

end Pruned

/-- The graph after the two walks of removing a node, over its callees and over its
    callers, before its own slot is emptied. -/
def walked (g : Graph) (s : Slot) : Graph :=
  (s.preds.toList.filter (· ≠ s.node.id)).foldl
    (fun g p => g.modifySlot p fun t =>
      { t with succs := t.succs.erase s.node.id, targets := t.targets.mapValues (·.erase s.node.id) })
    ((s.succs.toList.filter (· ≠ s.node.id)).foldl
      (fun g d => g.modifySlot d fun t => { t with preds := t.preds.erase s.node.id }) g)

theorem keeps_walked (g : Graph) (s : Slot) : Keeps g (walked g s) := by
  refine (keeps_foldl_modifySlot _ ?_ _ g).trans (keeps_foldl_modifySlot _ ?_ _ _)
  · exact fun _ => rfl
  · exact fun _ => rfl

/-- Removing a node is the two walks and one write to everything else. -/
theorem discard_eq (g : Graph) (s : Slot) :
    g.discard s =
      { walked g s with
        slots := (walked g s).slots.setIfInBounds s.node.id.toNat none
        index := g.index.erase (s.node.unit, s.node.context)
        byUnit := dropFromUnit g.byUnit s.node.unit s.node.id
        live := g.live - 1
        edges := g.edges - s.succs.size - (s.preds.toList.filter (· ≠ s.node.id)).length
        entrypoints := if s.node.id ∈ g.entrySet then g.entrypoints.erase s.node.id else g.entrypoints
        entrySet := g.entrySet.erase s.node.id } := by
  have hkeep := keeps_walked g s
  have hedges : (walked g s).edges = g.edges := by
    rw [walked, edges_foldl_modifySlot, edges_foldl_modifySlot]
  rw [← hkeep.index, ← hkeep.byUnit, ← hkeep.live, ← hkeep.entrypoints, ← hkeep.entrySet, ← hedges]
  rfl

/-- The list of a unit after a removal. A list that becomes empty is erased, which reads
    the same. -/
theorem getD_find?_dropFromUnit (t : Table CodeUnit (List Int)) (unit u : CodeUnit) (id : Int) :
    ((dropFromUnit t unit id).find? u).getD [] =
      if unit = u then ((t.find? unit).getD []).erase id else (t.find? u).getD [] := by
  unfold dropFromUnit
  split
  · next hnil =>
    rw [Table.find?_erase, hnil]
    split <;> rfl
  · rw [Table.find?_insert]
    split <;> rfl

/-- No list of a unit is kept empty. -/
theorem find?_dropFromUnit_ne_nil {t : Table CodeUnit (List Int)} {u : CodeUnit}
    (h : t.find? u ≠ some []) (unit : CodeUnit) (id : Int) :
    (dropFromUnit t unit id).find? u ≠ some [] := by
  unfold dropFromUnit
  split
  · -- The list has become empty, so it is taken out.
    rw [Table.find?_erase]
    split
    · simp
    · exact h
  · next hids =>
    rw [Table.find?_insert]
    split
    · intro hnil
      exact hids (Option.some.inj hnil)
    · exact h

namespace WellFormed

variable {g : Graph}

/-- A callee that a slot does not have is no target of its sites either. -/
theorem mapValues_targets_eq (hg : WellFormed g) {i : Int} {s : Slot} (hs : g.slot? i = some s)
    {f : IdSet → IdSet} {p : Int → Bool} (hf : ∀ t, f t = t.filter p) (hp : ∀ d ∈ s.succs, p d) :
    s.targets.mapValues f = s.targets := by
  have hself : ∀ site t, s.targets.find? site = some t → f t = t := by
    intro site t ht
    rw [hf]
    exact IdSet.filter_eq_self fun d hd => hp d (hg.target_called hs ht hd)
  rw [Table.mapValues_congr hself, Table.mapValues_id]

/-- Slots that show all of their edges lose nothing. Their targets are callees, so these
    are shown as well. -/
theorem restrict_eq_self (hg : WellFormed g) {i : Int} {s : Slot} (hs : g.slot? i = some s)
    {shows : Int → Int → Bool} (hsucc : ∀ d ∈ s.succs, shows i d)
    (hpred : ∀ p ∈ s.preds, shows p i) : s.restrict shows i = s := by
  rw [Slot.restrict, IdSet.filter_eq_self hsucc, IdSet.filter_eq_self hpred,
    hg.mapValues_targets_eq hs (fun _ => rfl) hsucc]

/-- Removing an edge hides that edge and nothing else. An edge that is not there is hidden
    as well, and there the slots of a well-formed graph are what the restriction leaves:
    neither end stores the other, and no site has a target without an edge. -/
theorem pruned_unlink (hg : WellFormed g) (src dst : Int) :
    Pruned (fun _ => true) (fun a b => !(a = src && b = dst)) g (g.unlink src dst) := by
  have hkeep := keeps_unlink g src dst
  refine ⟨fun _ => ⟨rfl, rfl⟩, hkeep.serial, hkeep.size, hkeep.frozen, fun i => ?_, ?_⟩
  · rw [if_pos rfl]
    cases hs : g.slot? i with
    -- Removing an edge makes no slot.
    | none =>
        have hnode := hkeep.node? i
        rw [Graph.node?, Graph.node?, hs] at hnode
        rw [Option.map_none]
        exact Option.map_eq_none_iff.1 hnode
    | some s =>
        rw [Option.map_some]
        by_cases hcall : g.Calls src dst
        · rw [slot?_unlink hcall, hs, Option.map_some, Slot.restrict_cut]
        · -- Without the edge nothing is hidden, and nothing is changed.
          rw [unlink_of_not_calls hcall, hs, hg.restrict_eq_self hs]
          · intro d hd
            rw [Bool.not_eq_true', Bool.and_eq_false_imp]
            intro hi
            rw [decide_eq_true_iff] at hi
            rw [decide_eq_false_iff_not]
            rintro rfl
            exact hcall ⟨s, hi ▸ hs, hd⟩
          · intro p hp
            rw [Bool.not_eq_true', Bool.and_eq_false_imp]
            intro hi
            rw [decide_eq_true_iff] at hi
            rw [decide_eq_false_iff_not]
            rintro rfl
            exact hcall (hg.calls_iff.2 ⟨s, hs, hi ▸ hp⟩)
  · rw [hkeep.entrypoints]
    simp

/-- What the two walks leave in the slots of other nodes. A slot that neither of them
    visits does not name the node, because edges are stored at both ends. -/
theorem slot?_walked (hg : WellFormed g) {id : Int} {s : Slot} (hs : g.slot? id = some s)
    {i : Int} (hi : i ≠ id) :
    (walked g s).slot? i = (g.slot? i).map (Slot.restrict (fun a b => a ≠ id && b ≠ id) i) := by
  have hid : s.node.id = id := hg.id_eq (node?_eq_some_iff.2 ⟨s, hs, rfl⟩)
  rw [walked, hid]
  rw [slot?_foldl_modifySlot _ _ _ _ (s.preds.nodup_toList.filter _),
    slot?_foldl_modifySlot _ _ _ _ (s.succs.nodup_toList.filter _)]
  simp only [List.mem_filter, IdSet.mem_toList, decide_eq_true_eq, hi, ne_eq, not_false_eq_true,
    and_true]
  cases ht : g.slot? i with
  | none => simp
  | some t =>
      -- The walks visit exactly the slots that name the node.
      have hsucc : i ∈ s.succs ↔ id ∈ t.preds := hg.mem_succs_iff hs ht
      have hpred : id ∈ t.succs ↔ i ∈ s.preds := hg.mem_succs_iff ht hs
      have hshow : ∀ r : IdSet,
          r.filter (fun d => decide (i ≠ id) && decide (d ≠ id)) = r.erase id := by
        intro r
        apply IdSet.ext
        intro x
        simp [hi]
      have hshow' : ∀ r : IdSet,
          r.filter (fun p => decide (p ≠ id) && decide (i ≠ id)) = r.erase id := by
        intro r
        apply IdSet.ext
        intro x
        simp [hi]
      have hpreds : i ∉ s.succs → t.preds.erase id = t.preds := fun h =>
        IdSet.filter_eq_self fun x hx => by
          rw [decide_eq_true_iff]
          rintro rfl
          exact h (hsucc.2 hx)
      have hnamed : i ∉ s.preds → ∀ d ∈ t.succs, decide (d ≠ id) = true := fun h x hx => by
        rw [decide_eq_true_iff]
        rintro rfl
        exact h (hpred.1 hx)
      have hsuccs : i ∉ s.preds → t.succs.erase id = t.succs := fun h =>
        IdSet.filter_eq_self (hnamed h)
      have htargets : i ∉ s.preds → t.targets.mapValues (·.erase id) = t.targets := fun h =>
        hg.mapValues_targets_eq ht (fun _ => rfl) (hnamed h)
      simp only [Option.map_some, Slot.restrict, hshow, hshow']
      -- Whether a walk comes by or not, what it would erase is not there afterwards.
      by_cases h1 : i ∈ s.succs
      · by_cases h2 : i ∈ s.preds
        · rw [if_pos h2, if_pos h1, Option.map_some]
        · rw [if_neg h2, if_pos h1, hsuccs h2, htargets h2]
      · by_cases h2 : i ∈ s.preds
        · rw [if_pos h2, if_neg h1, Option.map_some, hpreds h1]
        · rw [if_neg h2, if_neg h1, hsuccs h2, htargets h2, hpreds h1]

/-- Removing a node hides the node and every edge at it. Its own slot is emptied, and the
    two walks over its callers and callees take it out of the slots of all others. The list
    of entrypoints is searched only if the set has the node, which is the same as filtering
    because the two agree. -/
theorem pruned_discard (hg : WellFormed g) {id : Int} {s : Slot} (hs : g.slot? id = some s) :
    Pruned (· ≠ id) (fun a b => a ≠ id && b ≠ id) g (g.discard s) := by
  have hid : s.node.id = id := hg.id_eq (node?_eq_some_iff.2 ⟨s, hs, rfl⟩)
  have hkeep := keeps_walked g s
  rw [discard_eq, hid]
  refine ⟨?_, hkeep.serial, ?_, hkeep.frozen, fun i => ?_, ?_⟩
  · intro a b hab
    exact Bool.and_eq_true_iff.1 hab
  · rw [Array.size_setIfInBounds]
    exact hkeep.size
  · refine (slot?_eraseSlot _ id i (slot?_bounds hs).1).trans ?_
    by_cases hi : i = id
    · rw [if_pos hi, if_neg (by simp [hi])]
    · rw [if_neg hi, if_pos (by simp [hi])]
      exact hg.slot?_walked hs hi
  · -- The list is searched only if the set says that the node is an entrypoint.
    change (if id ∈ g.entrySet then g.entrypoints.erase id else g.entrypoints) = _
    by_cases hin : id ∈ g.entrySet
    · rw [if_pos hin, hg.entry_nodup.erase_eq_filter]
      refine List.filter_congr fun x _ => ?_
      by_cases hx : x = id <;> simp [hx]
    · rw [if_neg hin, List.filter_eq_self.2]
      intro x hx
      rw [decide_eq_true_iff]
      rintro rfl
      exact hin (hg.mem_entrySet.2 hx)

/-- Removing an edge keeps a graph well formed. It was counted once, and the counter is
    lowered by one if it was there. -/
theorem unlink (hg : WellFormed g) (src dst : Int) : WellFormed (g.unlink src dst) := by
  have hpruned := hg.pruned_unlink src dst
  have hedges : (g.unlink src dst).edges = (g.unlink src dst).edgeSet.ncard := by
    by_cases hcall : g.Calls src dst
    · -- The edge that goes is the only one that makes a difference.
      have hset : g.edgeSet = insert (src, dst) (g.unlink src dst).edgeSet := by
        ext p
        rw [Set.mem_insert_iff, mem_edgeSet, mem_edgeSet, hpruned.calls_iff, Prod.ext_iff]
        constructor
        · intro hp
          by_cases hsame : p.1 = src ∧ p.2 = dst
          · exact Or.inl hsame
          · refine Or.inr ⟨hp, ?_⟩
            rw [Bool.not_eq_true', Bool.and_eq_false_iff, decide_eq_false_iff_not,
              decide_eq_false_iff_not]
            exact not_and_or.1 hsame
        · rintro (⟨h1, h2⟩ | hp)
          · rw [h1, h2]
            exact hcall
          · exact hp.1
      have hout : (src, dst) ∉ (g.unlink src dst).edgeSet := by
        rw [mem_edgeSet, hpruned.calls_iff]
        simp
      have hfin : (g.unlink src dst).edgeSet.Finite :=
        hg.finite_edgeSet.subset fun p hp => (hpruned.calls_iff.1 hp).1
      -- The counter was right before, and one edge less is one less in the set.
      have hcount := hg.edges_eq
      rw [hset, Set.ncard_insert_of_notMem hout hfin] at hcount
      rw [edges_unlink hcall, hcount]
      omega
    · rw [unlink_of_not_calls hcall]
      exact hg.edges_eq
  exact (keeps_unlink g src dst).wellFormed hg (hpruned.mirrored hg.toMirrored hedges)
    (hpruned.attributed hg.toAttributed)

/-- The edges at a node are its callees and those callers that are other nodes. The
    edges of the graph are split into these two kinds and the rest, which do not
    overlap. -/
theorem ncard_edgeSet_discard (hg : WellFormed g) {id : Int} {s : Slot}
    (hs : g.slot? id = some s) :
    g.edgeSet.ncard = (g.discard s).edgeSet.ncard + s.succs.size +
      (s.preds.toList.filter (· ≠ id)).length := by
  have hpruned := hg.pruned_discard hs
  have hout_iff : ∀ d, g.Calls id d ↔ d ∈ s.succs := fun d => calls_iff_mem_succs hs
  have hin_iff : ∀ p, g.Calls p id ↔ p ∈ s.preds := fun p =>
    hg.calls_iff.trans (calledBy_iff_mem_preds hs)
  let out : Set (Int × Int) := (fun d => (id, d)) '' {d | d ∈ s.succs}
  let inward : Set (Int × Int) := (fun p => (p, id)) '' {p | p ∈ s.preds.filter (· ≠ id)}
  have hset : g.edgeSet = ((g.discard s).edgeSet ∪ out) ∪ inward := by
    ext ⟨a, b⟩
    simp only [out, inward, Set.mem_union, mem_edgeSet, hpruned.calls_iff, Set.mem_image,
      Set.mem_ofPred_eq, Prod.mk.injEq, IdSet.mem_filter]
    by_cases ha : a = id
    · subst ha
      rw [hout_iff]
      simp
    · by_cases hb : b = id
      · subst hb
        rw [hin_iff]
        simp [ha, Ne.symm ha]
      · simp [ha, hb, Ne.symm ha, Ne.symm hb]
  have hfin : ∀ t ⊆ g.edgeSet, t.Finite := fun t ht => hg.finite_edgeSet.subset ht
  -- Edges that stay do not touch the node.
  have hdisj : Disjoint (g.discard s).edgeSet out := by
    rw [Set.disjoint_left]
    rintro ⟨a, b⟩ hab ⟨d, _, heq⟩
    rw [mem_edgeSet, hpruned.calls_iff] at hab
    rw [Prod.mk.injEq] at heq
    simp [← heq.1] at hab
  have hdisj' : Disjoint ((g.discard s).edgeSet ∪ out) inward := by
    rw [Set.disjoint_left]
    rintro ⟨a, b⟩ hab ⟨p, hp, heq⟩
    rw [Prod.mk.injEq] at heq
    rw [Set.mem_ofPred_eq, IdSet.mem_filter, decide_eq_true_iff] at hp
    rcases hab with hab | ⟨d, _, hd⟩
    · rw [mem_edgeSet, hpruned.calls_iff] at hab
      simp [← heq.2] at hab
    · -- A loop is among the callees and is left out of the callers.
      rw [Prod.mk.injEq] at hd
      exact hp.2 (heq.1.trans hd.1.symm)
  have hsub : (g.discard s).edgeSet ∪ out ⊆ g.edgeSet := by
    rw [hset]
    exact Set.subset_union_left
  have hsub' : inward ⊆ g.edgeSet := by
    rw [hset]
    exact Set.subset_union_right
  rw [hset, Set.ncard_union_eq hdisj' (hfin _ hsub) (hfin _ hsub'),
    Set.ncard_union_eq hdisj (hfin _ (Set.subset_union_left.trans hsub))
      (hfin _ (Set.subset_union_right.trans hsub)),
    Set.ncard_image_of_injective _ (fun a b h => (Prod.mk.injEq _ _ _ _ ▸ h).2),
    Set.ncard_image_of_injective _ (fun a b h => (Prod.mk.injEq _ _ _ _ ▸ h).1),
    IdSet.ncard_members, IdSet.ncard_members]
  rfl

/-- The live numbers are those that stay and the one that is removed. -/
theorem live_discard (hg : WellFormed g) {id : Int} {s : Slot} (hs : g.slot? id = some s) :
    {i | g.Live i} = insert id {i | (g.discard s).Live i} := by
  ext i
  rw [Set.mem_insert_iff, Set.mem_ofPred_eq, Set.mem_ofPred_eq, (hg.pruned_discard hs).live_iff]
  by_cases hi : i = id
  · rw [hi]
    exact ⟨fun _ => Or.inl rfl, fun _ => live_of_slot? hs⟩
  · simp [hi]

/-- The indexes lose the node, and the list of its unit goes with its last node. A pair of
    a unit and a context has one node, so erasing the pair loses no other node, and a list
    of a unit has no repetitions, so erasing the first occurrence erases all of them. -/
theorem indexed_discard (hg : WellFormed g) {id : Int} {s : Slot} (hs : g.slot? id = some s) :
    Indexed (g.discard s) := by
  have hpruned := hg.pruned_discard hs
  have hnode : g.node? id = some s.node := node?_eq_some_iff.2 ⟨s, hs, rfl⟩
  have hid : s.node.id = id := hg.id_eq hnode
  have hindex : (g.discard s).index = g.index.erase (s.node.unit, s.node.context) := by
    rw [discard_eq]
  have hbyUnit : (g.discard s).byUnit = dropFromUnit g.byUnit s.node.unit id := by
    rw [discard_eq, hid]
  have hlive : (g.discard s).live = g.live - 1 := by
    rw [discard_eq]
  -- Erasing from a list without repetitions is filtering.
  have herase : ∀ u, (((g.discard s).byUnit.find? u).getD []) =
      ((g.byUnit.find? u).getD []).filter (· ≠ id) := by
    intro u
    rw [hbyUnit, getD_find?_dropFromUnit]
    by_cases hu : s.node.unit = u
    · have hnodup : ((g.byUnit.find? s.node.unit).getD []).Nodup :=
        (hg.byUnit_ascending s.node.unit).imp fun h => Int.ne_of_lt h
      rw [if_pos hu, ← hu, hnodup.erase_eq_filter]
      refine List.filter_congr fun x _ => ?_
      by_cases hx : x = id <;> simp [hx]
    · rw [if_neg hu, List.filter_eq_self.2]
      intro x hx
      rw [decide_eq_true_iff]
      rintro rfl
      rcases hg.mem_byUnit.1 hx with ⟨n, hn, hnu⟩
      rw [hnode, Option.some.injEq] at hn
      rw [← hn] at hnu
      exact hu hnu
  refine ⟨?_, ?_, ?_, ?_, ?_⟩
  · intro u c i
    rw [hindex, Table.find?_erase]
    simp only [hpruned.node?_eq_some_iff, decide_eq_true_eq]
    by_cases hkey : (s.node.unit, s.node.context) = (u, c)
    · -- The pair had one node, and that one is gone.
      rw [if_pos hkey]
      rw [Prod.mk.injEq] at hkey
      refine ⟨fun h => absurd h (by simp), ?_⟩
      rintro ⟨n, ⟨hne, hn⟩, hu, hc⟩
      have hi := hg.index_iff.2 ⟨n, hn, hu, hc⟩
      rw [hg.index_iff.2 ⟨s.node, hnode, hkey.1, hkey.2⟩, Option.some.injEq] at hi
      exact absurd hi.symm hne
    · -- Any other pair keeps its node, since the node that is gone has its own pair.
      rw [if_neg hkey, hg.index_iff]
      constructor
      · rintro ⟨n, hn, rfl, rfl⟩
        refine ⟨n, ⟨?_, hn⟩, rfl, rfl⟩
        rintro rfl
        rw [hnode, Option.some.injEq] at hn
        exact hkey (by rw [hn])
      · rintro ⟨n, ⟨_, hn⟩, hu, hc⟩
        exact ⟨n, hn, hu, hc⟩
  · intro u i
    rw [herase, List.mem_filter, hg.mem_byUnit]
    simp only [hpruned.node?_eq_some_iff, and_assoc]
    constructor
    · rintro ⟨⟨n, hn, hu⟩, hne⟩
      exact ⟨n, hne, hn, hu⟩
    · rintro ⟨n, hne, hn, hu⟩
      exact ⟨⟨n, hn, hu⟩, hne⟩
  · intro u
    rw [herase]
    exact (hg.byUnit_ascending u).filter _
  · intro u
    rw [hbyUnit]
    exact find?_dropFromUnit_ne_nil (hg.byUnit_ne_nil u) _ _
  · have hgone : id ∉ {i | (g.discard s).Live i} := by
      rw [Set.mem_ofPred_eq, hpruned.live_iff]
      simp
    have hcount := hg.live_eq
    rw [hg.live_discard hs, Set.ncard_insert_of_notMem hgone (finite_live _)] at hcount
    rw [hlive, hcount]
    omega

/-- Removing an ordinary node keeps a graph well formed. The roots cannot be removed,
    and that is what the check of the kind is for. -/
theorem discard (hg : WellFormed g) {id : Int} {s : Slot} (hs : g.slot? id = some s)
    (hkind : s.node.kind = .ordinary) : WellFormed (g.discard s) := by
  have hpruned := hg.pruned_discard hs
  have hnode : g.node? id = some s.node := node?_eq_some_iff.2 ⟨s, hs, rfl⟩
  have hid : s.node.id = id := hg.id_eq hnode
  -- The roots are not ordinary, so neither of them is the node.
  have hroot : rootId ≠ id := by
    rintro rfl
    rw [hg.root, Option.some.injEq] at hnode
    rw [← hnode] at hkind
    exact absurd hkind (by simp)
  have hclinit : clinitId ≠ id := by
    rintro rfl
    rw [hg.clinit, Option.some.injEq] at hnode
    rw [← hnode] at hkind
    exact absurd hkind (by simp)
  have hedges : (g.discard s).edges = (g.discard s).edgeSet.ncard := by
    have hcount := hg.edges_eq
    rw [hg.ncard_edgeSet_discard hs] at hcount
    have hwrite : (g.discard s).edges =
        g.edges - s.succs.size - (s.preds.toList.filter (· ≠ id)).length := by
      rw [discard_eq, hid]
    rw [hwrite, hcount]
    push_cast
    omega
  have hentry : ∀ {i}, i ∈ (g.discard s).entrySet ↔ i ∈ g.entrySet ∧ decide (i ≠ id) = true := by
    intro i
    rw [discard_eq, hid, IdSet.mem_erase, decide_eq_true_iff]
  exact ⟨hpruned.numbered hg.toNumbered,
    hpruned.rooted hg.toRooted (decide_eq_true hroot) (decide_eq_true hclinit),
    hg.indexed_discard hs, hpruned.mirrored hg.toMirrored hedges,
    hpruned.attributed hg.toAttributed, hpruned.entered hg.toEntered hentry⟩

end WellFormed

end Graph

end CallAtlas
