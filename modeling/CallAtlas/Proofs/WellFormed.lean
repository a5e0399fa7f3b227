import CallAtlas.Proofs.Slots
import Mathlib.Data.Int.Interval

/-!
# Well-Formed Graphs

A stored graph says several things twice. Callers and callees both store an edge,
two indexes and two counters repeat what the slots hold, recorded sites stand in a
list and as the keys of a table, and entrypoints in a list and in a set. A graph
is well formed when all of these agree. An answer may then be read off whichever
of them is at hand, which is what every query does.

The condition is cut along the data that an edit touches. `Numbered`, `Rooted`,
`Indexed` and `Entered` speak of nodes and indexes only, so an edit of edges or
sites keeps them because it keeps what they read, and that is one lemma for each
rather than one for each edit. `Mirrored` and `Attributed` speak of edges and of
sites.

The counters are compared with the sizes of sets of numbers and of pairs, not
with a walk over the slots. An edge added or removed is then a pair added to or
removed from a set, wherever in the slots it may be.

## Main definitions

* `Graph.Numbered`: Every node stands in the slot of its number.
* `Graph.Rooted`: The first two slots hold the synthetic roots, and no other does.
* `Graph.Indexed`: The indexes and the count of nodes repeat the slots.
* `Graph.Mirrored`: Both ends of an edge store it, and edges are counted once.
* `Graph.Attributed`: Sites are the keys of the targets, and targets are callees.
* `Graph.Entered`: Entrypoints are nodes, once each, and the set repeats the list.
* `Graph.WellFormed`: All of these.

## Theorems

* `Graph.wellFormed_fresh`: The graph of the two roots is well formed.
* `Graph.WellFormed.create`, `Graph.WellFormed.link`, `Graph.WellFormed.recordSite`,
  `Graph.WellFormed.call`, `Graph.WellFormed.markEntrypoint`: Edits that add to a
  graph keep it so.
-/

namespace CallAtlas

namespace Graph

/-- Every node stands in the slot of its number and bears the serial of its graph. -/
structure Numbered (g : Graph) : Prop where
  id_eq : ∀ {i n}, g.node? i = some n → n.id = i
  serial_eq : ∀ {i n}, g.node? i = some n → n.serial = g.serial

/-- The first two slots hold the synthetic roots, and all other nodes are ordinary. -/
structure Rooted (g : Graph) : Prop where
  root : g.node? rootId = some ⟨g.serial, rootId, .fakeRoot, .everywhere, .fakeRoot⟩
  clinit : g.node? clinitId =
    some ⟨g.serial, clinitId, .fakeWorldClinit, .everywhere, .fakeWorldClinit⟩
  ordinary : ∀ {i n}, g.node? i = some n → i ≠ rootId → i ≠ clinitId → n.kind = .ordinary

/-- The indexes and the count of nodes repeat the slots. -/
structure Indexed (g : Graph) : Prop where
  index_iff : ∀ {u c i}, g.index.find? (u, c) = some i ↔
    ∃ n, g.node? i = some n ∧ n.unit = u ∧ n.context = c
  mem_byUnit : ∀ {u i}, i ∈ (g.byUnit.find? u).getD [] ↔ ∃ n, g.node? i = some n ∧ n.unit = u
  byUnit_ascending : ∀ u, ((g.byUnit.find? u).getD []).Pairwise (· < ·)
  byUnit_ne_nil : ∀ u, g.byUnit.find? u ≠ some []
  live_eq : g.live = {i | g.Live i}.ncard

/-- Both ends of an edge store it, and the counter counts each edge once. -/
structure Mirrored (g : Graph) : Prop where
  calls_iff : ∀ {src dst}, g.Calls src dst ↔ g.CalledBy dst src
  edges_eq : g.edges = g.edgeSet.ncard

/-- The recorded sites are the keys of the targets, and targets are callees. -/
structure Attributed (g : Graph) : Prop where
  keys_eq : ∀ {i s}, g.slot? i = some s → s.targets.keys = s.sites
  target_called : ∀ {i s site t d}, g.slot? i = some s → s.targets.find? site = some t →
    d ∈ t → d ∈ s.succs

/-- Entrypoints are nodes, each registered once, and the set repeats the list. -/
structure Entered (g : Graph) : Prop where
  entry_live : ∀ {i}, i ∈ g.entrypoints → g.Live i
  entry_nodup : g.entrypoints.Nodup
  mem_entrySet : ∀ {i}, i ∈ g.entrySet ↔ i ∈ g.entrypoints

/-- Everything that a graph says twice agrees. -/
structure WellFormed (g : Graph) : Prop extends
  Numbered g, Rooted g, Indexed g, Mirrored g, Attributed g, Entered g

/-! ## Edits of edges and sites keep what is said of nodes -/

namespace Keeps

variable {g g' : Graph}

/-- The four conditions on nodes and indexes read nothing that an edit of edges or sites writes. -/
theorem numbered (h : Keeps g g') (hg : Numbered g) : Numbered g' where
  id_eq hn := hg.id_eq (by rw [← h.node?]; exact hn)
  serial_eq hn := by
    rw [h.serial]
    exact hg.serial_eq (by rw [← h.node?]; exact hn)

theorem rooted (h : Keeps g g') (hg : Rooted g) : Rooted g' where
  root := by rw [h.node?, h.serial]; exact hg.root
  clinit := by rw [h.node?, h.serial]; exact hg.clinit
  ordinary hn := hg.ordinary (by rw [← h.node?]; exact hn)

theorem indexed (h : Keeps g g') (hg : Indexed g) : Indexed g' where
  index_iff := by
    intro u c i
    rw [h.index, h.node?]
    exact hg.index_iff
  mem_byUnit := by
    intro u i
    rw [h.byUnit, h.node?]
    exact hg.mem_byUnit
  byUnit_ascending u := by rw [h.byUnit]; exact hg.byUnit_ascending u
  byUnit_ne_nil u := by rw [h.byUnit]; exact hg.byUnit_ne_nil u
  live_eq := by
    -- The same numbers are live, so there are as many.
    have hset : {i | g'.Live i} = {i | g.Live i} := Set.ext fun i => h.live_iff i
    rw [h.live, hset]
    exact hg.live_eq

theorem entered (h : Keeps g g') (hg : Entered g) : Entered g' where
  entry_live hi := (h.live_iff _).2 (hg.entry_live (by rw [← h.entrypoints]; exact hi))
  entry_nodup := by rw [h.entrypoints]; exact hg.entry_nodup
  mem_entrySet := by
    intro i
    rw [h.entrySet, h.entrypoints]
    exact hg.mem_entrySet

/-- An edit of edges and sites keeps a graph well formed if it keeps what is said
    of edges and of sites. -/
theorem wellFormed (h : Keeps g g') (hg : WellFormed g) (hm : Mirrored g') (ha : Attributed g') :
    WellFormed g' :=
  ⟨h.numbered hg.toNumbered, h.rooted hg.toRooted, h.indexed hg.toIndexed, hm, ha,
    h.entered hg.toEntered⟩

end Keeps

/-! ## What well-formedness gives -/

/-- The caller of an edge is a node, because its slot is where the edge was found. -/
theorem Calls.live_left {g : Graph} {src dst : Int} (h : g.Calls src dst) : g.Live src := by
  rcases h with ⟨s, hs, _⟩
  exact live_of_slot? hs

/-- The callee of an edge is a node, because it stores the edge as well. -/
theorem Mirrored.live_right {g : Graph} (hg : Mirrored g) {src dst : Int} (h : g.Calls src dst) :
    g.Live dst := by
  rcases hg.calls_iff.1 h with ⟨s, hs, _⟩
  exact live_of_slot? hs

/-- A slot names a callee exactly if the slot of the callee names it. -/
theorem Mirrored.mem_succs_iff {g : Graph} (hg : Mirrored g) {i j : Int} {s t : Slot}
    (hs : g.slot? i = some s) (ht : g.slot? j = some t) : j ∈ s.succs ↔ i ∈ t.preds := by
  rw [← calls_iff_mem_succs hs, hg.calls_iff, calledBy_iff_mem_preds ht]

/-- A site with a target is recorded. -/
theorem Attributed.mem_sitesAt_of_attributes {g : Graph} (hg : Attributed g) {i : Int}
    {site : CallSite} {d : Int} (h : g.Attributes i site d) : site ∈ g.sitesAt i := by
  rcases h with ⟨s, hs, t, ht, _⟩
  have hkey : site ∈ s.targets.keys := Table.mem_keys.2 (by rw [ht]; rfl)
  rw [hg.keys_eq hs] at hkey
  simp only [sitesAt, hs]
  exact hkey

/-- A target is a callee. -/
theorem Attributed.calls_of_attributes {g : Graph} (hg : Attributed g) {i : Int} {site : CallSite}
    {d : Int} (h : g.Attributes i site d) : g.Calls i d := by
  rcases h with ⟨s, hs, t, ht, hd⟩
  exact ⟨s, hs, hg.target_called hs ht hd⟩

/-- There are as many nodes as slots at most. Sizes of sets are compared below, and the
    size of an infinite set would be zero. -/
theorem finite_live (g : Graph) : {i | g.Live i}.Finite := by
  refine (Set.finite_Ico (0 : Int) g.slots.size).subset fun i hi => ?_
  rcases live_iff_exists.1 hi with ⟨s, hs⟩
  exact slot?_bounds hs

/-- Edges are pairs of nodes, so there are finitely many of them. -/
theorem Mirrored.finite_edgeSet {g : Graph} (hg : Mirrored g) : g.edgeSet.Finite := by
  refine ((finite_live g).prod (finite_live g)).subset fun p hp => ?_
  exact ⟨Calls.live_left hp, hg.live_right hp⟩

/-! ## Making nodes -/

theorem node?_create (g : Graph) (u : CodeUnit) (c : Context) (k : NodeKind) (i : Int) :
    (g.create u c k).1.node? i =
      if i = g.slots.size then
        some { serial := g.serial, id := g.slots.size, unit := u, context := c, kind := k }
      else g.node? i := by
  rw [node?, node?, slot?_create]
  by_cases h : i = g.slots.size
  · rw [if_pos h, if_pos h, Option.map_some]
  · rw [if_neg h, if_neg h]

theorem node?_size (g : Graph) : g.node? g.slots.size = none := by
  rw [node?, slot?_size, Option.map_none]

theorem Numbered.create {g : Graph} (hg : Numbered g) (u : CodeUnit) (c : Context)
    (k : NodeKind) : Numbered (g.create u c k).1 where
  id_eq := by
    intro i n hn
    rw [node?_create] at hn
    split at hn
    · -- The new node stands in the slot of its number.
      next h =>
      rw [Option.some.injEq] at hn
      rw [← hn, h]
    · exact hg.id_eq hn
  serial_eq := by
    intro i n hn
    rw [node?_create] at hn
    split at hn
    · rw [Option.some.injEq] at hn
      rw [← hn]
      rfl
    · exact hg.serial_eq hn

/-- Ordinary nodes may be made freely. The roots are in slots that exist, and the new
    node is in one that does not. -/
theorem Rooted.create {g : Graph} (hg : Rooted g) (u : CodeUnit) (c : Context) :
    Rooted (g.create u c .ordinary).1 where
  root := by
    rw [node?_create, if_neg]
    · exact hg.root
    · -- The slot of a root is not the new one, which is still empty.
      intro h
      exact absurd (hg.root.symm.trans (h ▸ node?_size g)) (by simp)
  clinit := by
    rw [node?_create, if_neg]
    · exact hg.clinit
    · intro h
      exact absurd (hg.clinit.symm.trans (h ▸ node?_size g)) (by simp)
  ordinary := by
    intro i n hn h0 h1
    rw [node?_create] at hn
    split at hn
    · rw [Option.some.injEq] at hn
      rw [← hn]
    · exact hg.ordinary hn h0 h1

/-- The live numbers are those from before and the next one. -/
theorem live_create (g : Graph) (u : CodeUnit) (c : Context) (k : NodeKind) :
    {i | (g.create u c k).1.Live i} = insert (g.slots.size : Int) {i | g.Live i} := by
  ext i
  rw [Set.mem_insert_iff, Set.mem_ofPred_eq, Set.mem_ofPred_eq, live_iff_node?, live_iff_node?,
    node?_create]
  by_cases h : i = g.slots.size
  · rw [if_pos h]
    exact ⟨fun _ => Or.inl h, fun _ => rfl⟩
  · rw [if_neg h]
    exact ⟨Or.inr, fun hi => hi.resolve_left h⟩

/-- The indexes follow a new node. This needs a pair that has no node yet: the index
    would forget the older one, which keeps its slot. -/
theorem Indexed.create {g : Graph} (hg : Indexed g) {u : CodeUnit} {c : Context}
    (hnew : g.index.find? (u, c) = none) (k : NodeKind) : Indexed (g.create u c k).1 where
  index_iff := by
    intro u' c' i
    change (g.index.insert (u, c) (g.slots.size : Int)).find? (u', c') = some i ↔ _
    rw [Table.find?_insert, node?_create]
    by_cases hkey : (u, c) = (u', c')
    · rw [if_pos hkey]
      rw [Prod.mk.injEq] at hkey
      rcases hkey with ⟨rfl, rfl⟩
      by_cases hi : i = g.slots.size
      · rw [if_pos hi, hi]
        exact ⟨fun _ => ⟨_, rfl, rfl, rfl⟩, fun _ => rfl⟩
      · -- An older node of the pair would be in the index already.
        rw [if_neg hi, Option.some.injEq]
        refine ⟨fun h => absurd h.symm hi, fun h => ?_⟩
        rw [← hg.index_iff, hnew] at h
        exact absurd h (by simp)
    · rw [if_neg hkey]
      by_cases hi : i = g.slots.size
      · -- The number of the new node is not one that the index has for another pair.
        rw [if_pos hi, hg.index_iff, hi, node?_size]
        constructor
        · rintro ⟨n, hn, _⟩
          exact absurd hn (by simp)
        · rintro ⟨n, hn, rfl, rfl⟩
          rw [Option.some.injEq] at hn
          rw [← hn] at hkey
          exact absurd rfl hkey
      · rw [if_neg hi]
        exact hg.index_iff
  mem_byUnit := by
    intro u' i
    change i ∈ ((g.byUnit.insert u ((g.byUnit.find? u).getD [] ++ [(g.slots.size : Int)])).find?
      u').getD [] ↔ _
    rw [Table.find?_insert, node?_create]
    by_cases hu : u = u'
    · rw [if_pos hu, Option.getD_some, List.mem_append, List.mem_singleton, hg.mem_byUnit]
      by_cases hi : i = g.slots.size
      · rw [if_pos hi]
        exact ⟨fun _ => ⟨_, rfl, hu⟩, fun _ => Or.inr hi⟩
      · rw [if_neg hi, ← hu]
        exact ⟨fun h => h.resolve_right hi, Or.inl⟩
    · rw [if_neg hu, hg.mem_byUnit]
      by_cases hi : i = g.slots.size
      · rw [if_pos hi, hi, node?_size]
        constructor
        · rintro ⟨n, hn, _⟩
          exact absurd hn (by simp)
        · rintro ⟨n, hn, hn'⟩
          rw [Option.some.injEq] at hn
          rw [← hn] at hn'
          exact absurd hn' hu
      · rw [if_neg hi]
  byUnit_ascending := by
    intro u'
    change (((g.byUnit.insert u ((g.byUnit.find? u).getD [] ++ [(g.slots.size : Int)])).find?
      u').getD []).Pairwise (· < ·)
    rw [Table.find?_insert]
    by_cases hu : u = u'
    · rw [if_pos hu, Option.getD_some, List.pairwise_append]
      refine ⟨hg.byUnit_ascending u, List.pairwise_singleton _ _, ?_⟩
      -- Numbers handed out before are below the next one.
      intro a ha b hb
      rcases hg.mem_byUnit.1 ha with ⟨n, hn, _⟩
      rcases node?_eq_some_iff.1 hn with ⟨s, hs, _⟩
      rw [List.mem_singleton.1 hb]
      exact (slot?_bounds hs).2
    · rw [if_neg hu]
      exact hg.byUnit_ascending u'
  byUnit_ne_nil := by
    intro u'
    change (g.byUnit.insert u ((g.byUnit.find? u).getD [] ++ [(g.slots.size : Int)])).find? u' ≠ _
    rw [Table.find?_insert]
    by_cases hu : u = u'
    · rw [if_pos hu]
      simp
    · rw [if_neg hu]
      exact hg.byUnit_ne_nil u'
  live_eq := by
    have hfresh : (g.slots.size : Int) ∉ {i | g.Live i} := by
      rw [Set.mem_ofPred_eq, Live, slot?_size]
      simp
    rw [live_create, Set.ncard_insert_of_notMem hfresh (finite_live g)]
    -- One more is counted, and one number more is live.
    change g.live + 1 = _
    rw [hg.live_eq]
    simp

/-- A new node calls nothing. -/
theorem calls_create {g : Graph} {u : CodeUnit} {c : Context} {k : NodeKind} {src dst : Int} :
    (g.create u c k).1.Calls src dst ↔ g.Calls src dst := by
  unfold Calls
  rw [slot?_create]
  -- Its slot has no callees, and before it there was no slot.
  by_cases h : src = g.slots.size
  · rw [if_pos h, h, slot?_size]
    constructor
    · rintro ⟨s, hs, hmem⟩
      rw [Option.some.injEq] at hs
      rw [← hs] at hmem
      exact absurd hmem IdSet.not_mem_empty
    · rintro ⟨s, hs, _⟩
      exact absurd hs (by simp)
  · rw [if_neg h]

/-- Nothing calls a new node. -/
theorem calledBy_create {g : Graph} {u : CodeUnit} {c : Context} {k : NodeKind} {src dst : Int} :
    (g.create u c k).1.CalledBy dst src ↔ g.CalledBy dst src := by
  unfold CalledBy
  rw [slot?_create]
  by_cases h : dst = g.slots.size
  · -- The new slot has no callers.
    rw [if_pos h, h, slot?_size]
    constructor
    · rintro ⟨s, hs, hmem⟩
      rw [Option.some.injEq] at hs
      rw [← hs] at hmem
      exact absurd hmem IdSet.not_mem_empty
    · rintro ⟨s, hs, _⟩
      exact absurd hs (by simp)
  · rw [if_neg h]

theorem Mirrored.create {g : Graph} (hg : Mirrored g) (u : CodeUnit) (c : Context)
    (k : NodeKind) : Mirrored (g.create u c k).1 where
  calls_iff := by
    intro src dst
    rw [calls_create, calledBy_create]
    exact hg.calls_iff
  edges_eq := by
    have hset : (g.create u c k).1.edgeSet = g.edgeSet := Set.ext fun _ => calls_create
    rw [hset]
    exact hg.edges_eq

theorem Attributed.create {g : Graph} (hg : Attributed g) (u : CodeUnit) (c : Context)
    (k : NodeKind) : Attributed (g.create u c k).1 where
  keys_eq := by
    intro i s hs
    rw [slot?_create] at hs
    split at hs
    · rw [Option.some.injEq] at hs
      rw [← hs]
      rfl
    · exact hg.keys_eq hs
  target_called := by
    intro i s site t d hs ht hd
    rw [slot?_create] at hs
    -- The new slot has no sites.
    split at hs
    · rw [Option.some.injEq] at hs
      rw [← hs, Table.find?_empty] at ht
      exact absurd ht (by simp)
    · exact hg.target_called hs ht hd

theorem Entered.create {g : Graph} (hg : Entered g) (u : CodeUnit) (c : Context)
    (k : NodeKind) : Entered (g.create u c k).1 where
  entry_live := by
    intro i hi
    have hold : i ∈ {i | (g.create u c k).1.Live i} := by
      rw [live_create]
      exact Set.mem_insert_of_mem _ (hg.entry_live hi)
    exact hold
  entry_nodup := hg.entry_nodup
  mem_entrySet := hg.mem_entrySet

/-- Making a node of a unit and context that has none keeps a graph well formed. Its
    edges and sites are empty, so only the indexes need the assumption. -/
theorem WellFormed.create {g : Graph} (hg : WellFormed g) {u : CodeUnit} {c : Context}
    (hnew : g.index.find? (u, c) = none) : WellFormed (g.create u c .ordinary).1 :=
  ⟨hg.toNumbered.create u c _, hg.toRooted.create u c, hg.toIndexed.create hnew _,
    hg.toMirrored.create u c _, hg.toAttributed.create u c _, hg.toEntered.create u c _⟩

/-- The graph before its first node has no slots. It is not well formed, since it lacks
    the roots, but apart from them it has everything, and `wellFormed_fresh` adds both. -/
theorem slot?_bare (serial : Nat) (i : Int) : ({ serial := serial } : Graph).slot? i = none := by
  unfold slot?
  split
  · rfl
  · simp

/-- The graph of the two roots is well formed. A graph without slots satisfies everything
    but `Rooted`, and making a node keeps that if the pair of its unit and its context is
    new. The two roots are different units, so it is new both times. -/
theorem wellFormed_fresh (serial : Nat) : WellFormed (fresh serial) := by
  have hnode : ∀ i, ({ serial := serial } : Graph).node? i = none := by
    intro i
    rw [node?, slot?_bare, Option.map_none]
  have hlive : {i | ({ serial := serial } : Graph).Live i} = ∅ := by
    ext i
    rw [Set.mem_ofPred_eq, live_iff_node?, hnode]
    simp
  have hedges : ({ serial := serial } : Graph).edgeSet = ∅ := by
    ext p
    rw [mem_edgeSet, Calls, slot?_bare]
    simp
  -- All but `Rooted` holds already before the first root is made.
  have numbered : Numbered { serial := serial } := by
    constructor
    all_goals
      intro i n hn
      rw [hnode] at hn
      exact absurd hn (by simp)
  have indexed : Indexed { serial := serial } := by
    refine ⟨?_, ?_, ?_, ?_, ?_⟩
    · intro u c i
      rw [hnode]
      simp
    · intro u i
      rw [hnode]
      simp
    · intro u
      exact List.Pairwise.nil
    · intro u
      simp
    · rw [hlive, Set.ncard_empty]
      rfl
  have mirrored : Mirrored { serial := serial } := by
    refine ⟨?_, ?_⟩
    · intro src dst
      simp only [Calls, CalledBy, slot?_bare]
      simp
    · rw [hedges, Set.ncard_empty]
      rfl
  have attributed : Attributed { serial := serial } := by
    refine ⟨?_, ?_⟩
    · intro i s hs
      rw [slot?_bare] at hs
      exact absurd hs (by simp)
    · intro i s site t d hs
      rw [slot?_bare] at hs
      exact absurd hs (by simp)
  have entered : Entered { serial := serial } := by
    refine ⟨?_, List.nodup_nil, ?_⟩
    · intro i hi
      exact absurd hi List.not_mem_nil
    · intro i
      exact ⟨fun h => absurd h IdSet.not_mem_empty, fun h => absurd h List.not_mem_nil⟩
  -- The second root is another unit than the first.
  have hother : (({ serial := serial } : Graph).create .fakeRoot .everywhere .fakeRoot).1.index.find?
      (.fakeWorldClinit, .everywhere) = none := by
    change ((Table.empty.insert (CodeUnit.fakeRoot, Context.everywhere) (0 : Int)).find? _) = none
    rw [Table.find?_insert, if_neg (by decide), Table.find?_empty]
  -- The roots themselves are read off the two slots at the end.
  refine ⟨(numbered.create _ _ _).create _ _ _, ?_,
    (indexed.create (Table.find?_empty _) _).create hother _,
    (mirrored.create _ _ _).create _ _ _, (attributed.create _ _ _).create _ _ _,
    (entered.create _ _ _).create _ _ _⟩
  refine ⟨rfl, rfl, ?_⟩
  intro i n hn h0 h1
  change ((({ serial := serial } : Graph).create .fakeRoot .everywhere .fakeRoot).1.create
    .fakeWorldClinit .everywhere .fakeWorldClinit).1.node? i = some n at hn
  rw [node?_create] at hn
  split at hn
  · next h => exact absurd h h1
  · rw [node?_create] at hn
    split at hn
    · next h => exact absurd h h0
    · rw [hnode] at hn
      exact absurd hn (by simp)

/-! ## Adding edges and sites -/

/-- The edges after adding one. Only the caller has to be a node for this direction. -/
theorem calls_link {g : Graph} {src dst : Int} (hsrc : g.Live src) {a b : Int} :
    (g.link src dst).Calls a b ↔ g.Calls a b ∨ (a = src ∧ b = dst) := by
  -- An edge that is there is not added again, and is covered by the second case all the same.
  by_cases hnew : g.Calls src dst
  · rw [link_of_calls hnew]
    refine ⟨Or.inl, ?_⟩
    rintro (h | ⟨rfl, rfl⟩)
    · exact h
    · exact hnew
  · rcases live_iff_exists.1 hsrc with ⟨s, hs⟩
    simp only [Calls, slot?_link hsrc hnew, Option.map_eq_some_iff]
    by_cases ha : a = src
    · subst ha
      simp [hs]
      tauto
    · simp [ha]

/-- The edges after adding one, as the callees store them. An edge that is there already
    is not written again, so it has to be mirrored before. -/
theorem calledBy_link {g : Graph} {src dst : Int} (hsrc : g.Live src) (hdst : g.Live dst)
    (hmirror : g.Calls src dst → g.CalledBy dst src) {a b : Int} :
    (g.link src dst).CalledBy b a ↔ g.CalledBy b a ∨ (a = src ∧ b = dst) := by
  -- Only an edge that is new is written, at both of its ends.
  by_cases hnew : g.Calls src dst
  · rw [link_of_calls hnew]
    refine ⟨Or.inl, ?_⟩
    rintro (h | ⟨rfl, rfl⟩)
    · exact h
    · exact hmirror hnew
  · rcases live_iff_exists.1 hdst with ⟨s, hs⟩
    simp only [CalledBy, slot?_link hsrc hnew, Option.map_eq_some_iff]
    by_cases hb : b = dst
    · subst hb
      simp [hs]
      tauto
    · simp [hb]

/-- Adding an edge between nodes writes it at both ends and counts it if it is new. -/
theorem Mirrored.link {g : Graph} (hg : Mirrored g) {src dst : Int} (hsrc : g.Live src)
    (hdst : g.Live dst) : Mirrored (g.link src dst) := by
  by_cases hnew : g.Calls src dst
  · rw [link_of_calls hnew]
    exact hg
  · refine ⟨?_, ?_⟩
    · intro a b
      rw [calls_link hsrc, calledBy_link hsrc hdst hg.calls_iff.1, hg.calls_iff]
    · -- The counter goes up by one, and so does the set, since the pair was not in it.
      have hset : (g.link src dst).edgeSet = insert (src, dst) g.edgeSet := by
        ext p
        rw [Set.mem_insert_iff, mem_edgeSet, mem_edgeSet, calls_link hsrc, Prod.ext_iff, or_comm]
      have hout : (src, dst) ∉ g.edgeSet := hnew
      rw [edges_link hsrc hnew, hset, Set.ncard_insert_of_notMem hout hg.finite_edgeSet,
        hg.edges_eq]
      simp

/-- Changing sites and targets alone keeps what is said of edges. -/
theorem Mirrored.modifySlot {g : Graph} (hg : Mirrored g) (id : Int) (f : Slot → Slot)
    (hs : ∀ s, (f s).succs = s.succs) (hp : ∀ s, (f s).preds = s.preds) :
    Mirrored (g.modifySlot id f) := by
  -- Edges are read off callees and callers, which are the same in every slot.
  have hcalls : ∀ a b, (g.modifySlot id f).Calls a b ↔ g.Calls a b := by
    intro a b
    unfold Calls
    rw [slot?_modifySlot]
    by_cases h : a = id
    · simp [if_pos h, hs]
    · rw [if_neg h]
  have hcalled : ∀ a b, (g.modifySlot id f).CalledBy b a ↔ g.CalledBy b a := by
    intro a b
    unfold CalledBy
    rw [slot?_modifySlot]
    by_cases h : b = id
    · simp [if_pos h, hp]
    · rw [if_neg h]
  refine ⟨?_, ?_⟩
  · intro a b
    rw [hcalls, hcalled]
    exact hg.calls_iff
  · have hset : (g.modifySlot id f).edgeSet = g.edgeSet := Set.ext fun p => hcalls p.1 p.2
    rw [hset, edges_modifySlot]
    exact hg.edges_eq

/-- What adding an edge does to one slot: it gets a callee at most. Read backwards, from
    the slot after the edge, because the conditions are about slots that were found. -/
theorem slot?_link_inv {g : Graph} {src dst : Int} (hsrc : g.Live src) {i : Int} {s' : Slot}
    (h : (g.link src dst).slot? i = some s') :
    ∃ s, g.slot? i = some s ∧ s'.sites = s.sites ∧ s'.targets = s.targets ∧
      ∀ d, d ∈ s'.succs ↔ d ∈ s.succs ∨ (i = src ∧ d = dst) := by
  by_cases hnew : g.Calls src dst
  · rw [link_of_calls hnew] at h
    refine ⟨s', h, rfl, rfl, fun d => ⟨Or.inl, ?_⟩⟩
    rintro (hd | ⟨rfl, rfl⟩)
    · exact hd
    · -- The callee is there already, in the slot that was found.
      rcases hnew with ⟨s, hs, hmem⟩
      rw [hs, Option.some.injEq] at h
      rw [← h]
      exact hmem
  · rw [slot?_link hsrc hnew, Option.map_eq_some_iff] at h
    rcases h with ⟨s, hs, rfl⟩
    refine ⟨s, hs, rfl, rfl, fun d => ?_⟩
    by_cases hi : i = src
    · simp [hi, or_comm]
    · simp [hi]

theorem Attributed.link {g : Graph} (hg : Attributed g) {src : Int} (hsrc : g.Live src)
    (dst : Int) : Attributed (g.link src dst) where
  keys_eq := by
    intro i s' hs'
    rcases slot?_link_inv hsrc hs' with ⟨s, hs, hsites, htargets, _⟩
    rw [hsites, htargets]
    exact hg.keys_eq hs
  target_called := by
    intro i s' site t d hs' ht hd
    rcases slot?_link_inv hsrc hs' with ⟨s, hs, _, htargets, hsuccs⟩
    rw [htargets] at ht
    exact (hsuccs d).2 (Or.inl (hg.target_called hs ht hd))

end Graph

namespace Slot

/-- Slots test the table where the list of sites is meant. -/
theorem contains_targets_iff {s : Slot} (h : s.targets.keys = s.sites) {site : CallSite} :
    s.targets.contains site ↔ site ∈ s.sites := by
  rw [← h, Table.mem_keys, Table.contains]

/-- A recorded site is the last one, unless it was recorded before. -/
theorem record_sites {s : Slot} (h : s.targets.keys = s.sites) (site : CallSite) :
    (s.record site).sites = if site ∈ s.sites then s.sites else s.sites ++ [site] := by
  by_cases hm : site ∈ s.sites
  · rw [if_pos hm, record, if_pos ((contains_targets_iff h).2 hm)]
  · rw [if_neg hm, record, if_neg (fun hc => hm ((contains_targets_iff h).1 hc))]

/-- Recording a site writes it to the list and to the table, or to neither. -/
theorem record_keys {s : Slot} (h : s.targets.keys = s.sites) (site : CallSite) :
    (s.record site).targets.keys = (s.record site).sites := by
  by_cases hm : s.targets.contains site
  · rw [record, if_pos hm]
    exact h
  · have hout : site ∉ s.targets.keys := by
      rw [Table.mem_keys]
      exact hm
    rw [record, if_neg hm, Table.keys_insert, if_neg hout, h]

/-- Recording a site gives it an empty set of targets, unless it has one. -/
theorem find?_record (s : Slot) (site site' : CallSite) :
    (s.record site).targets.find? site' =
      if site = site' then some ((s.targets.find? site).getD .empty)
      else s.targets.find? site' := by
  by_cases hm : s.targets.contains site
  · rw [record, if_pos hm]
    -- A site that is recorded keeps its targets.
    by_cases h : site = site'
    · rw [if_pos h, ← h]
      rcases Option.isSome_iff_exists.1 hm with ⟨t, ht⟩
      rw [ht, Option.getD_some]
    · rw [if_neg h]
  · have hnone : s.targets.find? site = none := by
      rw [Table.contains, Bool.not_eq_true, Option.isSome_eq_false_iff, Option.isNone_iff_eq_none]
        at hm
      exact hm
    rw [record, if_neg hm, Table.find?_insert, hnone, Option.getD_none]

/-- Attributing a callee to a site adds it to the targets of that site. -/
theorem find?_addTarget (s : Slot) (site site' : CallSite) (dst : Int) :
    ((s.record site).addTarget site dst).targets.find? site' =
      if site = site' then some (((s.targets.find? site).getD .empty).insert dst)
      else s.targets.find? site' := by
  rw [addTarget, Table.find?_insert, find?_record, if_pos rfl, Option.getD_some]
  by_cases h : site = site'
  · rw [if_pos h, if_pos h]
  · rw [if_neg h, if_neg h, find?_record, if_neg h]

/-- A callee attributed to a site that is being recorded makes no further key. -/
theorem addTarget_keys {s : Slot} (h : s.targets.keys = s.sites) (site : CallSite) (dst : Int) :
    ((s.record site).addTarget site dst).targets.keys = (s.record site).sites := by
  have hin : site ∈ (s.record site).targets.keys := by
    rw [Table.mem_keys, find?_record, if_pos rfl]
    rfl
  rw [addTarget, Table.keys_insert, if_pos hin, record_keys h]

end Slot

namespace Graph

/-- Recording a site keeps the keys in step and gives no target to any site. -/
theorem Attributed.recordSite {g : Graph} (hg : Attributed g) (id : Int) (site : CallSite) :
    Attributed (g.recordSite id site) where
  keys_eq := by
    intro i s' hs'
    rw [Graph.recordSite, slot?_modifySlot] at hs'
    split at hs'
    · rcases Option.map_eq_some_iff.1 hs' with ⟨s, hs, rfl⟩
      exact s.record_keys (hg.keys_eq hs) site
    · exact hg.keys_eq hs'
  target_called := by
    intro i s' site' t d hs' ht hd
    rw [Graph.recordSite, slot?_modifySlot] at hs'
    split at hs'
    · rcases Option.map_eq_some_iff.1 hs' with ⟨s, hs, rfl⟩
      rw [Slot.record_succs]
      rw [Slot.find?_record] at ht
      by_cases h : site = site'
      · rw [if_pos h, Option.some.injEq] at ht
        -- The targets of the site are what they were, or none if it is new.
        cases hf : s.targets.find? site with
        | none =>
            rw [hf, Option.getD_none] at ht
            rw [← ht] at hd
            exact absurd hd IdSet.not_mem_empty
        | some t' =>
            rw [hf, Option.getD_some] at ht
            rw [← ht] at hd
            exact hg.target_called hs hf hd
      · rw [if_neg h] at ht
        exact hg.target_called hs ht hd
    · exact hg.target_called hs' ht hd

/-- A call attributes its callee to a site and makes it a callee. Between the two
    the targets are ahead of the callees, so both are taken together. -/
theorem Attributed.call {g : Graph} (hg : Attributed g) {src : Int} (hsrc : g.Live src)
    (site : CallSite) (dst : Int) : Attributed ((g.addTarget src site dst).link src dst) := by
  have hsrc' : (g.addTarget src site dst).Live src :=
    ((keeps_addTarget g src site dst).live_iff src).2 hsrc
  refine ⟨?_, ?_⟩
  · intro i s' hs'
    rcases slot?_link_inv hsrc' hs' with ⟨s₁, hs₁, hsites, htargets, _⟩
    rw [hsites, htargets]
    rw [Graph.addTarget, slot?_modifySlot] at hs₁
    split at hs₁
    · rcases Option.map_eq_some_iff.1 hs₁ with ⟨s, hs, rfl⟩
      exact s.addTarget_keys (hg.keys_eq hs) site dst
    · exact hg.keys_eq hs₁
  · intro i s' site' t d hs' ht hd
    rcases slot?_link_inv hsrc' hs' with ⟨s₁, hs₁, _, htargets, hsuccs⟩
    rw [htargets] at ht
    rw [hsuccs]
    rw [Graph.addTarget, slot?_modifySlot] at hs₁
    split at hs₁
    · next hi =>
      rcases Option.map_eq_some_iff.1 hs₁ with ⟨s, hs, rfl⟩
      rw [Slot.addTarget_succs, Slot.record_succs]
      rw [Slot.find?_addTarget] at ht
      by_cases h : site = site'
      · rw [if_pos h, Option.some.injEq] at ht
        rw [← ht, IdSet.mem_insert] at hd
        -- The new target is the new callee, and older targets were callees before.
        rcases hd with rfl | hd
        · exact Or.inr ⟨hi, rfl⟩
        · cases hf : s.targets.find? site with
          | none =>
              rw [hf, Option.getD_none] at hd
              exact absurd hd IdSet.not_mem_empty
          | some t' =>
              rw [hf, Option.getD_some] at hd
              exact Or.inl (hg.target_called hs hf hd)
      · rw [if_neg h] at ht
        exact Or.inl (hg.target_called hs ht hd)
    · exact Or.inl (hg.target_called hs₁ ht hd)

namespace WellFormed

variable {g : Graph}

/-- Adding an edge between nodes keeps a graph well formed. -/
theorem link (hg : WellFormed g) {src dst : Int} (hsrc : g.Live src) (hdst : g.Live dst) :
    WellFormed (g.link src dst) :=
  (keeps_link g src dst).wellFormed hg (hg.toMirrored.link hsrc hdst)
    (hg.toAttributed.link hsrc dst)

/-- Recording a site keeps a graph well formed, even if the number has no node: then
    there is no slot to record it in. -/
theorem recordSite (hg : WellFormed g) (id : Int) (site : CallSite) :
    WellFormed (g.recordSite id site) :=
  (keeps_recordSite g id site).wellFormed hg
    (hg.toMirrored.modifySlot id _ (fun s => s.record_succs site) fun s => s.record_preds site)
    (hg.toAttributed.recordSite id site)

/-- A call between nodes keeps a graph well formed. -/
theorem call (hg : WellFormed g) {src dst : Int} (hsrc : g.Live src) (hdst : g.Live dst)
    (site : CallSite) : WellFormed ((g.addTarget src site dst).link src dst) := by
  have hkeep := keeps_addTarget g src site dst
  have hmirror : Mirrored (g.addTarget src site dst) :=
    hg.toMirrored.modifySlot src _ (fun s => s.record_succs site) fun s => s.record_preds site
  exact (hkeep.trans (keeps_link _ src dst)).wellFormed hg
    (hmirror.link ((hkeep.live_iff src).2 hsrc) ((hkeep.live_iff dst).2 hdst))
    (hg.toAttributed.call hsrc site dst)

/-- Registering a node as an entrypoint keeps a graph well formed. Everything but the
    list and the set of entrypoints is the same. -/
theorem markEntrypoint (hg : WellFormed g) {id : Int} (hid : g.Live id) :
    WellFormed (g.markEntrypoint id) := by
  by_cases hin : id ∈ g.entrySet
  · rw [Graph.markEntrypoint, if_pos hin]
    exact hg
  · rw [Graph.markEntrypoint, if_neg hin]
    refine ⟨⟨hg.id_eq, hg.serial_eq⟩, ⟨hg.root, hg.clinit, hg.ordinary⟩,
      ⟨hg.index_iff, hg.mem_byUnit, hg.byUnit_ascending, hg.byUnit_ne_nil, hg.live_eq⟩,
      ⟨hg.calls_iff, hg.edges_eq⟩, ⟨hg.keys_eq, hg.target_called⟩, ⟨?_, ?_, ?_⟩⟩
    · -- The list has one member more, a node that is there.
      intro i hi
      rcases List.mem_append.1 hi with hi | hi
      · exact hg.entry_live hi
      · rw [List.mem_singleton.1 hi]
        exact hid
    · rw [List.nodup_append]
      refine ⟨hg.entry_nodup, List.nodup_singleton _, ?_⟩
      -- The number was not in the set, and so it was not in the list.
      rintro a ha b hb rfl
      rw [List.mem_singleton.1 hb, ← hg.mem_entrySet] at ha
      exact hin ha
    · intro i
      rw [IdSet.mem_insert, List.mem_append, List.mem_singleton, hg.mem_entrySet, or_comm]

/-- Freezing a graph keeps it well formed. -/
theorem freeze (hg : WellFormed g) : WellFormed { g with frozen := true } :=
  ⟨⟨hg.id_eq, hg.serial_eq⟩, ⟨hg.root, hg.clinit, hg.ordinary⟩,
    ⟨hg.index_iff, hg.mem_byUnit, hg.byUnit_ascending, hg.byUnit_ne_nil, hg.live_eq⟩,
    ⟨hg.calls_iff, hg.edges_eq⟩, ⟨hg.keys_eq, hg.target_called⟩,
    ⟨hg.entry_live, hg.entry_nodup, hg.mem_entrySet⟩⟩

end WellFormed

end Graph

end CallAtlas
