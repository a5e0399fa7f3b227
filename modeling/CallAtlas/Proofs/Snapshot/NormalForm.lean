import CallAtlas.Proofs.Snapshot.Acceptance
import CallAtlas.Proofs.Snapshot.RoundTrip

/-!
# Documents in Normal Form

A document may say the same thing in many ways, and reading it makes one graph of them all. The
document of that graph is another one as a rule. This module shows that it is the last one: it
makes the same graph again, so writing what was read changes a document at most once.

That the graph comes back is known up to numbers and for what can be asked of it. More is meant
here, namely that every field is the same, also those that repeat what others say. The counters
and the set of entrypoints are determined by the rest, since the graph is well formed. The
two indexes have their entries in an order that no question shows, and what fixes it is that
nodes only came and were filed as they came. This is `Graph.Filed`, and it also says that there
are no gaps and that units and contexts are what their references and names stand for, so that
every node comes back as it was.

Only the serial is new with each reading. `Graph.stamped` is a graph with another one.

## Main definitions

* `Graph.stamped`: A graph under another serial.
* `Graph.Copies`: A graph shows what another one does, under another serial.
* `Graph.indexOf`, `Graph.unitsIn`: The indexes of nodes that are filed one by one.
* `Graph.Filed`: Nodes came one by one and none went.

## Theorems

* `Table.eq_of_keys_eq`: A table is determined by its keys in order and their values.
* `Graph.Copies.eq_stamped`: A copy is the same in every field.
* `Graph.Assembled.filed`, `Graph.Assembled.storable`, `Graph.Assembled.gapless`: What
  documents make can be told from documents.
* `CallGraph.Restored.encode_eq`: What comes back with its numbers has the same document.
* `Document.decode_normal_form`: The document of what was read makes the same again.
-/

namespace CallAtlas

/-- A table is determined by its keys in order and their values. -/
theorem Table.eq_of_keys_eq {α β : Type} [DecidableEq α] {t t' : Table α β}
    (hkeys : t.keys = t'.keys) (hfind : ∀ k, t.find? k = t'.find? k) : t = t' := by
  have hentries : t.entries = t'.entries := by
    have hlength : t.entries.length = t'.entries.length := by
      have hlength := congrArg List.length hkeys
      rwa [keys, keys, List.length_map, List.length_map] at hlength
    refine List.ext_getElem hlength fun i hi hi' => ?_
    have hkey : t.entries[i].1 = t'.entries[i].1 := by
      have hkey := List.getElem_of_eq hkeys (i := i) (by simpa [keys] using hi)
      simpa only [keys, List.getElem_map] using hkey
    -- Keys are not repeated, so the value at a position is the one that is found under its key.
    have hvalue : t.find? t.entries[i].1 = some t.entries[i].2 :=
      (t.find?_eq_some_iff _ _).2 (List.getElem_mem hi)
    have hvalue' : t'.find? t'.entries[i].1 = some t'.entries[i].2 :=
      (t'.find?_eq_some_iff _ _).2 (List.getElem_mem hi')
    rw [hfind, hkey, hvalue'] at hvalue
    exact Prod.ext hkey (Option.some.inj hvalue).symm
  cases t
  cases t'
  cases hentries
  rfl

/-! ## Serials -/

/-- A node under another serial. -/
def Node.stamped (n : Node) (serial : Nat) : Node := { n with serial }

@[simp] theorem Node.stamped_id (n : Node) (serial : Nat) : (n.stamped serial).id = n.id := rfl

/-- A slot under another serial. -/
def Slot.stamped (s : Slot) (serial : Nat) : Slot := { s with node := s.node.stamped serial }

namespace Graph

/-- A graph under another serial. -/
def stamped (g : Graph) (serial : Nat) : Graph :=
  { g with serial, slots := g.slots.map fun o => o.map fun s => s.stamped serial }

/-- The graph `g'` shows what `g` does, under another serial. -/
structure Copies (serial : Nat) (g g' : Graph) : Prop where
  serial_eq : g'.serial = serial
  frozen_eq : g'.frozen = g.frozen
  contains_iff : ∀ {m}, g'.contains m ↔ ∃ n, g.contains n ∧ n.stamped serial = m
  calls_iff : ∀ {i j}, g'.Calls i j ↔ g.Calls i j
  sitesAt_eq : ∀ i, g'.sitesAt i = g.sitesAt i
  attributes_iff : ∀ {i site j}, g'.Attributes i site j ↔ g.Attributes i site j
  entrypoints_eq : g'.entrypoints = g.entrypoints

/-- The index of nodes that are filed one by one. It is a function of the list of nodes,
    so graphs with the same nodes in the same order have the same index. -/
def indexOf (ns : List Node) : Table (CodeUnit × Context) Int :=
  ns.foldl (fun t n => t.insert (n.unit, n.context) n.id) .empty

/-- The numbers by unit of nodes that are filed one by one. -/
def unitsIn (ns : List Node) : Table CodeUnit (List Int) :=
  ns.foldl (fun t n => t.insert n.unit (((t.find? n.unit).getD []) ++ [n.id])) .empty

/-- Nodes came one by one and none went. Units are known by their reference, and
    contexts by their name. -/
structure Filed (g : Graph) : Prop where
  index_eq : g.index = indexOf g.nodes
  byUnit_eq : g.byUnit = unitsIn g.nodes
  full : ∀ {i : Nat}, i < g.slots.size → g.Live i
  plain : ∀ {n}, g.contains n → n.unit = .named n.unit.ref ∧ n.context = .ofName n.context.text

theorem attributes_iff_mem {g : Graph} {i d : Int} {s : Slot} {site : CallSite} {t : IdSet}
    (hs : g.slot? i = some s) (ht : s.targets.find? site = some t) :
    g.Attributes i site d ↔ d ∈ t := by
  simp only [Attributes, hs, Option.some.injEq, exists_eq_left', ht]

theorem sitesAt_of_not_live {g : Graph} {i : Int} (h : ¬ g.Live i) : g.sitesAt i = [] := by
  rw [Live, Bool.not_eq_true, Option.isSome_eq_false_iff, Option.isNone_iff_eq_none] at h
  rw [sitesAt, h]

namespace Copies

variable {serial : Nat} {g g' : Graph}

section

variable (h : Copies serial g g') (hg : g.WellFormed) (hg' : g'.WellFormed)

include h hg hg'

/-- A copy has nodes at the same numbers. -/
theorem live_iff (i : Int) : g'.Live i ↔ g.Live i := by
  constructor
  · intro hi
    rcases hg'.exists_contains hi with ⟨m, hm, rfl⟩
    rcases h.contains_iff.1 hm with ⟨n, hn, rfl⟩
    rw [Node.stamped_id]
    exact live_of_contains hn
  · intro hi
    rcases hg.exists_contains hi with ⟨n, hn, rfl⟩
    rw [← Node.stamped_id n serial]
    exact live_of_contains (h.contains_iff.2 ⟨n, hn, rfl⟩)

/-- The nodes of a copy are those of the graph under the new serial, in the same order. -/
theorem nodes_eq : g'.nodes = g.nodes.map fun n => n.stamped serial := by
  refine eq_of_ascending hg'.nodes_ascending ?_ fun m => ?_
  · rw [List.pairwise_map]
    exact hg.nodes_ascending
  · rw [← hg'.contains_iff_mem_nodes, h.contains_iff, List.mem_map]
    simp only [hg.contains_iff_mem_nodes]

/-- A slot of a copy holds the same edges, sites and targets. The sets are determined by
    what they contain, and the table of targets by its keys and values. -/
theorem slot_eq {i : Int} {s s' : Slot} (hs : g.slot? i = some s) (hs' : g'.slot? i = some s') :
    s' = s.stamped serial := by
  have hnode : s'.node = s.node.stamped serial := by
    have hn := node?_eq_some_iff.2 ⟨s, hs, rfl⟩
    have hid := hg.id_eq hn
    rw [← hid, ← Graph.contains_iff] at hn
    have hm := Graph.contains_iff.1 (h.contains_iff.2 ⟨s.node, hn, rfl⟩)
    rw [Node.stamped_id, hid, node?_eq_some_iff.2 ⟨s', hs', rfl⟩] at hm
    exact Option.some.inj hm
  have hsuccs : s'.succs = s.succs := IdSet.ext fun j => by
    rw [← calls_iff_mem_succs hs', ← calls_iff_mem_succs hs, h.calls_iff]
  -- A caller stores each edge as well, so callers need no condition of their own.
  have hpreds : s'.preds = s.preds := IdSet.ext fun j => by
    rw [← calledBy_iff_mem_preds hs', ← calledBy_iff_mem_preds hs, ← hg'.calls_iff,
      ← hg.calls_iff, h.calls_iff]
  have hsites : s'.sites = s.sites := by
    have hsites := h.sitesAt_eq i
    simpa only [sitesAt, hs, hs'] using hsites
  have htargets : s'.targets = s.targets := by
    -- The keys are the recorded sites in order, so only their values are left to compare.
    have hkeys : s'.targets.keys = s.targets.keys := by
      rw [hg'.keys_eq hs', hg.keys_eq hs, hsites]
    refine Table.eq_of_keys_eq hkeys fun site => ?_
    have hsome : (s'.targets.find? site).isSome ↔ (s.targets.find? site).isSome := by
      rw [← Table.mem_keys, ← Table.mem_keys, hkeys]
    cases ht : s.targets.find? site with
    | none =>
        rw [ht, Option.isSome_none] at hsome
        exact Option.isNone_iff_eq_none.1 (by simpa using hsome)
    | some t =>
        rcases Option.isSome_iff_exists.1 (hsome.2 (by rw [ht]; rfl)) with ⟨t', ht'⟩
        rw [ht']
        refine congrArg some (IdSet.ext fun j => ?_)
        rw [← attributes_iff_mem hs' ht', ← attributes_iff_mem hs ht, h.attributes_iff]
  cases s'
  simp only at hnode hsuccs hpreds hsites htargets
  rw [hnode, hsuccs, hpreds, hsites, htargets]
  rfl

/-- Slot by slot a copy is the graph under the new serial, if no slot of either is empty. -/
theorem slots_eq (hfull : ∀ {i : Nat}, i < g.slots.size → g.Live i)
    (hfull' : ∀ {i : Nat}, i < g'.slots.size → g'.Live i) :
    g'.slots = (g.stamped serial).slots := by
  -- The first number without a slot has no node in either graph.
  have hsize : g'.slots.size = g.slots.size := by
    rcases Nat.lt_trichotomy g'.slots.size g.slots.size with hlt | heq | hlt
    · have hlive := (h.live_iff hg hg' _).2 (hfull hlt)
      exact absurd hlive (not_live_size g')
    · exact heq
    · have hlive := (h.live_iff hg hg' _).1 (hfull' hlt)
      exact absurd hlive (not_live_size g)
  refine Array.ext (by simpa [stamped] using hsize) fun i hi' _ => ?_
  have hi : i < g.slots.size := hsize ▸ hi'
  have hslot : g.slots[i] = g.slot? i := by
    rw [← getElem?_slots, Array.getElem?_eq_getElem hi]
    rfl
  have hslot' : g'.slots[i] = g'.slot? i := by
    rw [← getElem?_slots, Array.getElem?_eq_getElem hi']
    rfl
  rcases live_iff_exists.1 (hfull hi) with ⟨s, hs⟩
  rcases live_iff_exists.1 (hfull' hi') with ⟨s', hs'⟩
  simp only [stamped, Array.getElem_map]
  rw [hslot, hslot', hs, hs', Option.map_some, h.slot_eq hg hg' hs hs']

end

/-- A copy is the same in every field but the serial. Each field is determined by what
    the graph shows, the indexes because both graphs were filed in the same way. -/
theorem eq_stamped (h : Copies serial g g') (hg : g.WellFormed) (hg' : g'.WellFormed)
    (hfiled : g.Filed) (hfiled' : g'.Filed) : g' = g.stamped serial := by
  -- Both indexes are computed from the nodes, and serials play no part in that.
  have hindex : g'.index = g.index := by
    rw [hfiled'.index_eq, hfiled.index_eq, h.nodes_eq hg hg', indexOf, List.foldl_map]
    rfl
  have hbyUnit : g'.byUnit = g.byUnit := by
    rw [hfiled'.byUnit_eq, hfiled.byUnit_eq, h.nodes_eq hg hg', unitsIn, List.foldl_map]
    rfl
  have hlive : g'.live = g.live := by
    rw [← hg'.length_nodes, ← hg.length_nodes, h.nodes_eq hg hg', List.length_map]
  have hedges : g'.edges = g.edges := by
    have hset : g'.edgeSet = g.edgeSet := Set.ext fun _ => h.calls_iff
    rw [hg'.edges_eq, hg.edges_eq, hset]
  have hentrySet : g'.entrySet = g.entrySet := IdSet.ext fun i => by
    rw [hg'.mem_entrySet, hg.mem_entrySet, h.entrypoints_eq]
  have hslots := h.slots_eq hg hg' hfiled.full hfiled'.full
  cases g'
  simp only [stamped, mk.injEq]
  exact ⟨h.serial_eq, hslots, hindex, hbyUnit, hlive, hedges, h.entrypoints_eq, hentrySet,
    h.frozen_eq⟩

end Copies

/-! ## What documents make -/

section

variable {serial : Nat} {g g' : Graph}

theorem Rooted.contains_rootNode (hg : g.Rooted) : g.contains (CallGraph.rootNode g.serial) :=
  contains_iff.2 hg.root

theorem Rooted.contains_clinitNode (hg : g.Rooted) :
    g.contains (CallGraph.clinitNode g.serial) :=
  contains_iff.2 hg.clinit

/-- Edits that leave the nodes alone leave them filed. -/
theorem Keeps.filed (h : Keeps g g') (hg : g.WellFormed) (hg' : g'.WellFormed) (hfiled : g.Filed) :
    g'.Filed where
  index_eq := by
    rw [h.index, h.nodes_eq hg hg']
    exact hfiled.index_eq
  byUnit_eq := by
    rw [h.byUnit, h.nodes_eq hg hg']
    exact hfiled.byUnit_eq
  full hi := (h.live_iff _).2 (hfiled.full (by rw [← h.size]; exact hi))
  plain hn := hfiled.plain (h.contains_iff.1 hn)

/-- The two roots are filed first. -/
theorem filed_fresh (serial : Nat) : (fresh serial).Filed where
  index_eq := rfl
  byUnit_eq := rfl
  full {i} hi := by
    have hi : i < 2 := hi
    have hcases : i = 0 ∨ i = 1 := by omega
    rcases hcases with rfl | rfl <;> rfl
  plain hn := by
    rcases contains_fresh.1 hn with rfl | rfl <;> exact ⟨rfl, rfl⟩

/-- A new node is filed last. -/
theorem Filed.create (hfiled : g.Filed) (ref : MethodRef) (name : String) :
    (g.create (.named ref) (.ofName name) .ordinary).1.Filed where
  index_eq := by
    rw [nodes_create, indexOf, List.foldl_append, ← indexOf, ← hfiled.index_eq]
    rfl
  byUnit_eq := by
    rw [nodes_create, unitsIn, List.foldl_append, ← unitsIn, ← hfiled.byUnit_eq]
    rfl
  full {i} hi := by
    rw [Live, slot?_create]
    split
    · rfl
    · -- Every slot but the last was there before, and none of these is empty.
      next hne =>
      refine hfiled.full ?_
      rw [Graph.create, Array.size_push] at hi
      omega
  plain hn := by
    rcases contains_create.1 hn with hn | rfl
    · exact hfiled.plain hn
    · exact ⟨rfl, by rw [Graph.create, Context.text_ofName]⟩

/-- Entrypoints are no part of what is filed. -/
theorem Filed.markEntrypoint (hfiled : g.Filed) (id : Int) : (g.markEntrypoint id).Filed := by
  have hnodes : (g.markEntrypoint id).nodes = g.nodes := by
    rw [nodes, nodes, slots_markEntrypoint]
  refine ⟨?_, ?_, fun hi => ?_, fun hn => ?_⟩
  · rw [hnodes, ← hfiled.index_eq, Graph.markEntrypoint]
    split <;> rfl
  · rw [hnodes, ← hfiled.byUnit_eq, Graph.markEntrypoint]
    split <;> rfl
  · rw [Live, slot?_markEntrypoint]
    exact hfiled.full (by rw [slots_markEntrypoint] at hi; exact hi)
  · rw [contains_markEntrypoint] at hn
    exact hfiled.plain hn

namespace Assembled

/-- Nodes of an assembled graph came one by one and none went, since nothing is ever removed. -/
theorem filed (h : Assembled serial g) : g.Filed := by
  induction h with
  | fresh => exact filed_fresh serial
  | create _ _ ih => exact ih.create _ _
  | recordSite h hi hk ih =>
      exact (keeps_recordSite _ _ _).filed h.wellFormed (h.recordSite hi hk).wellFormed ih
  | link h hsrc hdst ih =>
      exact (keeps_link _ _ _).filed h.wellFormed (h.link hsrc hdst).wellFormed ih
  | call h hsrc hdst hk ih =>
      exact (keeps_call _ _ _ _).filed h.wellFormed (h.call hsrc hdst hk).wellFormed ih
  | markEntrypoint _ _ ih => exact ih.markEntrypoint _

/-- Every recorded site has a kind with a name. -/
theorem named (h : Assembled serial g) {i : Int} {s : CallSite} (hs : s ∈ g.sitesAt i) :
    s.kind ∈ Dispatch.named := by
  -- One more site is recorded at the end, or was there before.
  have hlast : ∀ {p : Prop} [Decidable p] {l : List CallSite} {site : CallSite},
      (∀ s ∈ l, s.kind ∈ Dispatch.named) → site.kind ∈ Dispatch.named →
      ∀ {s}, s ∈ (if p then l ++ [site] else l) → s.kind ∈ Dispatch.named := by
    intro p _ l site hl hsite s hs
    split at hs
    · rcases List.mem_append.1 hs with hs | hs
      · exact hl s hs
      · rw [List.mem_singleton.1 hs]
        exact hsite
    · exact hl s hs
  induction h generalizing s with
  | fresh =>
      rw [sitesAt_fresh] at hs
      exact absurd hs List.not_mem_nil
  | create _ _ ih =>
      rw [sitesAt_create] at hs
      exact ih hs
  | recordSite h hi hk ih =>
      rw [sitesAt_recordSite h.wellFormed.toAttributed hi] at hs
      exact hlast (fun _ => ih) hk hs
  | link _ hsrc _ ih =>
      rw [sitesAt_link hsrc] at hs
      exact ih hs
  | call h hsrc _ hk ih =>
      rw [sitesAt_call h.wellFormed.toAttributed hsrc] at hs
      exact hlast (fun _ => ih) hk hs
  | markEntrypoint _ _ ih =>
      rw [sitesAt_markEntrypoint] at hs
      exact ih hs

/-- Reference and name of the context tell a node. In general they do not: units with
    bodies may share a reference. Here every unit is the one known by its reference. -/
theorem eq_of_ref_eq (h : Assembled serial g) {a b : Node} (ha : g.contains a) (hb : g.contains b)
    (href : a.unit.ref = b.unit.ref) (htext : a.context.text = b.context.text) : a = b := by
  have hunit : b.unit = a.unit := by rw [(h.filed.plain hb).1, ← href, ← (h.filed.plain ha).1]
  have hcontext : b.context = a.context := by
    rw [(h.filed.plain hb).2, ← htext, ← (h.filed.plain ha).2]
  have hfind := h.wellFormed.lookup_eq_some_iff.2 ⟨contains_iff.1 ha, rfl, rfl⟩
  rw [h.wellFormed.lookup_eq_some_iff.2 ⟨contains_iff.1 hb, hunit, hcontext⟩] at hfind
  exact (Option.some.inj hfind).symm

/-- A document can tell what documents make. An ordinary node does not pass for a root,
    since then it would be the root. -/
theorem storable (h : Assembled serial g) : CallGraph.Storable g where
  named {n} hn s hs := by
    have hin := h.wellFormed.contains_iff_mem_nodes.2 hn
    exact h.named (by rw [← callSites_eq hin]; exact hs)
  distinct ha _ hb := h.eq_of_ref_eq (h.wellFormed.contains_iff_mem_nodes.2 ha)
    (h.wellFormed.contains_iff_mem_nodes.2 hb)
  not_synthetic {n} hn hk htext := by
    have hin := h.wellFormed.contains_iff_mem_nodes.2 hn
    constructor
    · -- By reference and name it would be the root, which is not ordinary.
      intro href
      rw [h.eq_of_ref_eq hin h.wellFormed.contains_rootNode href htext] at hk
      exact absurd hk (by simp [CallGraph.rootNode])
    · intro href
      rw [h.eq_of_ref_eq hin h.wellFormed.contains_clinitNode href htext] at hk
      exact absurd hk (by simp [CallGraph.clinitNode])

/-- The numbers of what documents make have no gaps. -/
theorem gapless (h : Assembled serial g) : CallGraph.Gapless g where
  root := ⟨_, h.wellFormed.contains_iff_mem_nodes.1 h.wellFormed.contains_rootNode, rfl⟩
  clinit := ⟨_, h.wellFormed.contains_iff_mem_nodes.1 h.wellFormed.contains_clinitNode, rfl⟩
  between a ha b hb i hai hib := by
    rcases node?_eq_some_iff.1 (h.wellFormed.mem_nodes.1 ha) with ⟨s, hs, _⟩
    rcases node?_eq_some_iff.1 (h.wellFormed.mem_nodes.1 hb) with ⟨s', hs', _⟩
    have hlow := (slot?_bounds hs).1
    have hhigh := (slot?_bounds hs').2
    have hlive : g.Live (i.toNat : Nat) := h.filed.full (by omega)
    rw [Int.toNat_of_nonneg (by omega)] at hlive
    rcases h.wellFormed.exists_contains hlive with ⟨n, hn, hid⟩
    exact ⟨n, h.wellFormed.contains_iff_mem_nodes.1 hn, hid⟩

/-- A node comes back as it was, under the new serial. Its number is the same without
    gaps, and its unit and context are known by reference and name already. -/
theorem renumbered_eq (h : Assembled serial g) (serial' : Nat) {n : Node} (hn : n ∈ g.nodes) :
    CallGraph.renumbered serial' g n = n.stamped serial' := by
  have hlawful := h.wellFormed.lawful
  rcases hlawful.kind_cases hn with ⟨_, rfl⟩ | ⟨_, rfl⟩ | ⟨_, hk⟩
  · rfl
  · rfl
  · have hid := hlawful.renumbered_id_of_gapless h.gapless serial' hn
    have hplain := h.filed.plain (h.wellFormed.contains_iff_mem_nodes.2 hn)
    rw [CallGraph.renumbered_of_ordinary hk] at hid ⊢
    dsimp only at hid
    rw [hid, ← hplain.1, ← hplain.2, ← hk]
    rfl

end Assembled

/-- The edges to list are the calls that are stored. Listing goes by nodes and storing
    by numbers. -/
theorem WellFormed.exists_mem_edges_iff (hg : g.WellFormed) {i j : Int} :
    (∃ e ∈ CallGraph.edges g, i = e.1.id ∧ j = e.2.id) ↔ g.Calls i j := by
  constructor
  · rintro ⟨e, he, rfl, rfl⟩
    exact (hasEdge_iff.1 (hg.lawful.mem_edges.1 he).2.2).2.2
  · intro hcalls
    rcases hcalls with ⟨s, hs, hj⟩
    have hcalls : g.Calls i j := ⟨s, hs, hj⟩
    rcases hg.calls_iff.1 hcalls with ⟨s', hs', _⟩
    rcases hg.exists_contains (live_of_slot? hs) with ⟨a, ha, rfl⟩
    rcases hg.exists_contains (live_of_slot? hs') with ⟨b, hb, rfl⟩
    exact ⟨(a, b), hg.lawful.mem_edges.2 ⟨hg.contains_iff_mem_nodes.1 ha,
      hg.contains_iff_mem_nodes.1 hb, hasEdge_iff.2 ⟨ha, hb, hcalls⟩⟩, rfl, rfl⟩

/-- The numbers of the nodes with given numbers are these. -/
theorem Numbered.map_id_nodesWith (hg : g.Numbered) {ids : List Int}
    (hlive : ∀ i ∈ ids, g.Live i) : (g.nodesWith ids).map (fun n => n.id) = ids := by
  induction ids with
  | nil => rfl
  | cons i rest ih =>
      rcases hg.exists_contains (hlive i List.mem_cons_self) with ⟨n, hn, rfl⟩
      rw [nodesWith, List.filterMap_cons_some (contains_iff.1 hn), List.map_cons]
      exact congrArg _ (ih fun j hj => hlive j (List.mem_cons_of_mem _ hj))

end

section

open CallGraph (renumbered Replayed)

variable {serial serial' : Nat} {g : Graph} {d : Document.Draft} (hg : Assembled serial g)
  (hd : Replayed serial' g g.nodes g.nodes (CallGraph.edges g) (CallGraph.entrypoints g) d)

include hg hd

/-- What is read back has the same sites at every number. -/
theorem Assembled.sitesAt_replayed (i : Int) : d.graph.sitesAt i = g.sitesAt i := by
  have hwf := hg.wellFormed
  by_cases hi : g.Live i
  · rcases hwf.exists_contains hi with ⟨n, hn, rfl⟩
    have hmem := hwf.contains_iff_mem_nodes.1 hn
    have hsites := hd.sitesAt_eq hmem
    rw [hg.renumbered_eq serial' hmem] at hsites
    exact hsites.trans (callSites_eq hn)
  · rw [hd.sitesAt_else fun n hn hid => hi ?_, sitesAt_of_not_live hi]
    rw [hg.renumbered_eq serial' hn, Node.stamped_id] at hid
    rw [← hid]
    exact live_of_contains (hwf.contains_iff_mem_nodes.2 hn)

/-- What is read back has the same edges. -/
theorem Assembled.calls_replayed {i j : Int} : d.graph.Calls i j ↔ g.Calls i j := by
  rw [hd.calls_iff, ← hg.wellFormed.exists_mem_edges_iff]
  refine exists_congr fun e => and_congr_right fun he => ?_
  have hends := hg.wellFormed.lawful.mem_edges.1 he
  rw [hg.renumbered_eq serial' hends.1, hg.renumbered_eq serial' hends.2.1]
  rfl

/-- What is read back has the same attributions. A document tells them by its edges, so
    one that had no edge would be lost. -/
theorem Assembled.attributes_replayed {i j : Int} {site : CallSite} :
    d.graph.Attributes i site j ↔ g.Attributes i site j := by
  have hwf := hg.wellFormed
  rw [hd.attributes_iff]
  constructor
  · rintro ⟨e, he, hsite, hi, hj⟩
    have hends := hwf.lawful.mem_edges.1 he
    rw [hg.renumbered_eq serial' hends.1] at hi
    rw [hg.renumbered_eq serial' hends.2.1] at hj
    rw [hi, hj]
    exact (hwf.mem_targets.1 (hwf.lawful.mem_sitesBetween.1 hsite)).2.2
  · intro hat
    -- What is attributed to a site is called, and so is an edge to list.
    have hcalls : g.Calls i j := by
      rcases hat with ⟨s, hs, t, ht, hj⟩
      exact ⟨s, hs, hwf.target_called hs ht hj⟩
    rcases hwf.exists_mem_edges_iff.2 hcalls with ⟨e, he, rfl, rfl⟩
    have hends := hwf.lawful.mem_edges.1 he
    have htarget := hwf.mem_targets.2 ⟨hwf.contains_iff_mem_nodes.2 hends.1,
      hwf.contains_iff_mem_nodes.2 hends.2.1, hat⟩
    refine ⟨e, he, hwf.lawful.mem_sitesBetween.2 htarget, ?_, ?_⟩
    · rw [hg.renumbered_eq serial' hends.1, Node.stamped_id]
    · rw [hg.renumbered_eq serial' hends.2.1, Node.stamped_id]

/-- What is read back has the same nodes under the new serial. -/
theorem Assembled.contains_replayed {m : Node} :
    d.graph.contains m ↔ ∃ n, g.contains n ∧ n.stamped serial' = m := by
  have hwf := hg.wellFormed
  rw [hd.contains_iff]
  constructor
  · rintro (rfl | rfl | ⟨n, hn, rfl⟩)
    · exact ⟨_, hwf.contains_rootNode, rfl⟩
    · exact ⟨_, hwf.contains_clinitNode, rfl⟩
    · exact ⟨n, hwf.contains_iff_mem_nodes.2 hn, (hg.renumbered_eq serial' hn).symm⟩
  · rintro ⟨n, hn, rfl⟩
    have hmem := hwf.contains_iff_mem_nodes.1 hn
    exact Or.inr (Or.inr ⟨n, hmem, (hg.renumbered_eq serial' hmem).symm⟩)

/-- What is read back from the document of an assembled graph is a copy of it. Together
    with `Copies.eq_stamped` this is equality, although a document tells only what a
    graph shows. -/
theorem Assembled.copies : Copies serial' g d.graph where
  serial_eq := hd.serial_eq
  frozen_eq := hd.thawed.trans hg.thawed.symm
  contains_iff := hg.contains_replayed hd
  calls_iff := hg.calls_replayed hd
  sitesAt_eq := hg.sitesAt_replayed hd
  attributes_iff := hg.attributes_replayed hd
  entrypoints_eq := by
    have hids := hg.wellFormed.map_id_nodesWith fun _ => hg.wellFormed.entry_live
    rw [hd.entrypoints_eq, ← hids]
    refine List.map_congr_left fun n hn => ?_
    have hmem := hg.wellFormed.lawful.mem_of_mem_entrypoints hn
    rw [hg.renumbered_eq serial' hmem, Node.stamped_id]

end

/-- A graph under its own serial is itself. It is a copy of itself, and copies are equal. -/
theorem Assembled.stamped_self {serial : Nat} {g : Graph} (hg : Assembled serial g) :
    g.stamped serial = g := by
  have hself : ∀ {n}, g.contains n → n.stamped serial = n := by
    intro n hn
    rw [← hg.serial_eq, ← hg.wellFormed.serial_eq (contains_iff.1 hn)]
    rfl
  have hcopies : Copies serial g g := by
    refine ⟨hg.serial_eq, rfl, ⟨fun hm => ⟨_, hm, hself hm⟩, ?_⟩, Iff.rfl, fun _ => rfl, Iff.rfl,
      rfl⟩
    rintro ⟨n, hn, rfl⟩
    rw [hself hn]
    exact hn
  exact (hcopies.eq_stamped hg.wellFormed hg.wellFormed hg.filed hg.filed).symm

end Graph

/-! ## The document of what was read -/

namespace CallGraph

variable {G : Type} [CallGraph G] {g : G} {back : Node → Node} {g' : Graph}

theorem Restored.succs_eq (h : Restored g back g') (hg : Lawful g) (hg' : Lawful g')
    (hnodes : nodes g' = (nodes g).map back) {n : Node} (hn : n ∈ nodes g) :
    succs g' (back n) = (succs g n).map back := by
  rw [hg'.succs_eq, hg.succs_eq, hnodes, List.filter_map]
  refine congrArg _ (List.filter_congr fun m hm => ?_)
  exact h.hasEdge_eq hn hm

/-- What comes back with its numbers has the same document. The three lists of records
    are compared one by one. Edges name sites by position, and the sites are the same
    list. -/
theorem Restored.encode_eq (h : Restored g back g') (hg : Lawful g) (hg' : Lawful g')
    (hnodes : nodes g' = (nodes g).map back) (hid : ∀ {n}, n ∈ nodes g → (back n).id = n.id) :
    Document.encode g' = Document.encode g := by
  have hrecords : (nodes g').map (Document.nodeRecord g') =
      (nodes g).map (Document.nodeRecord g) := by
    rw [hnodes, List.map_map]
    refine List.map_congr_left fun n hn => ?_
    simp only [Function.comp_apply, Document.nodeRecord, hid hn, h.kind_eq hn, h.ref_eq hn,
      h.context_eq hn, h.callSites_eq hn]
  have hedges : edges g' = (edges g).map fun e => (back e.1, back e.2) := by
    rw [edges, edges, hnodes, List.flatMap_map, List.map_flatMap]
    refine List.flatMap_congr fun n hn => ?_
    rw [h.succs_eq hg hg' hnodes hn, List.map_map, List.map_map]
    rfl
  -- Positions are taken in the same list of sites on both sides.
  have hlinks : (edges g').map (Document.edgeRecord g') =
      (edges g).map (Document.edgeRecord g) := by
    rw [hedges, List.map_map]
    refine List.map_congr_left fun e he => ?_
    have hends := hg.mem_edges.1 he
    simp only [Function.comp_apply, Document.edgeRecord, hid hends.1, hid hends.2.1,
      h.callSites_eq hends.1, h.sitesBetween_eq hends.1 hends.2.1]
  have hentries : (entrypoints g').map (fun n => n.id) = (entrypoints g).map fun n => n.id := by
    rw [h.entrypoints_eq, List.map_map]
    exact List.map_congr_left fun n hn => hid (hg.mem_of_mem_entrypoints hn)
  rw [Document.encode, Document.encode, hrecords, hlinks, hentries]

end CallGraph

namespace Document

/-- The document of an assembled graph makes the same graph under any serial, and this has the
    same document. -/
theorem decode_encode_of_assembled {serial : Nat} {g : Graph} (hg : g.Assembled serial)
    (serial' : Nat) : decode serial' (encode g) = .ok (g.stamped serial') ∧
      encode (g.stamped serial') = encode g := by
  have hwf := hg.wellFormed
  rcases CallGraph.replayed_encode hwf.lawful hg.storable serial' with ⟨d, hdecode, hd⟩
  have hcopies := hg.copies hd
  -- What comes back was read from a document too, so its nodes were filed in the same way.
  have hsame := hcopies.eq_stamped hwf hd.wellFormed hg.filed (assembled_of_decode hdecode).filed
  have hnodes : CallGraph.nodes d.graph =
      (CallGraph.nodes g).map (CallGraph.renumbered serial' g) :=
    (hcopies.nodes_eq hwf hd.wellFormed).trans
      (List.map_congr_left fun n hn => (hg.renumbered_eq serial' hn).symm)
  rw [← hsame]
  refine ⟨hdecode, (hd.restored hwf.lawful).encode_eq hwf.lawful hd.wellFormed.lawful hnodes ?_⟩
  exact hwf.lawful.renumbered_id_of_gapless hg.gapless serial'

/-- The document of what was read makes the same graph again, in every field, and under another
    serial the same but for the serial. So it stays as it is however often it is read and
    written. -/
theorem decode_normal_form {serial : Nat} {doc : Document} {g : Graph}
    (h : decode serial doc = .ok g) :
    decode serial (encode g) = .ok g ∧
      (∀ serial', decode serial' (encode g) = .ok (g.stamped serial') ∧
        encode (g.stamped serial') = encode g) ∧
      ∀ serials : List Nat,
        serials.foldlM (fun doc s => (decode s doc).map encode) (encode g) = .ok (encode g) := by
  have hg := assembled_of_decode h
  have hagain := decode_encode_of_assembled hg
  refine ⟨?_, hagain, fun serials => ?_⟩
  · rw [(hagain serial).1, hg.stamped_self]
  · induction serials with
    | nil => rfl
    | cons s rest ih =>
        -- Reading and writing once more gives back the document, so nothing changes from here
        -- on.
        have hstep : (decode s (encode g)).map encode = .ok (encode g) := by
          rw [(hagain s).1]
          exact congrArg Except.ok (hagain s).2
        rw [List.foldlM_cons, hstep]
        exact ih

/-- A document in disorder. Two records have one number, so that a site of the first is
    called from the node of the second. Two stand for one node, a root is met under two
    numbers, and sites and entrypoints are repeated. -/
def untidy : Document :=
  { schema := "1"
    nodes :=
      [{ id := 7, kind := "lambda", name := "g", context := "c"
         sites := [{ pc := 4, kind := "virtual" }] },
        { id := 3, kind := "fake_root" },
        { id := 7, name := "f"
          sites := [{ pc := 1, kind := "static" }, { pc := 1, kind := "static" }] },
        { id := -2, kind := "ordinary", name := "g", context := "c" },
        { id := 9, owner := "$synthetic", name := "fakeRoot", signature := "()"
          context := "Everywhere" }]
    edges := [{ src := 7, dst := -2, sites := [2, 0] }, { src := 9, dst := 7 },
      { src := 3, dst := 7 }]
    entrypoints := [-2, 7, -2] }

/-- What is written when it was read. -/
def tidied : Document :=
  { schema := "1"
    nodes :=
      [{ id := 0, kind := "fake_root", owner := "$synthetic", name := "fakeRoot"
         signature := "()", context := "Everywhere" },
        { id := 1, kind := "fake_world_clinit", owner := "$synthetic", name := "fakeWorldClinit"
          signature := "()", context := "Everywhere" },
        { id := 2, kind := "ordinary", name := "g", context := "c"
          sites := [{ pc := 4, kind := "virtual" }] },
        { id := 3, kind := "ordinary", name := "f"
          sites := [{ pc := 1, kind := "static" }, { pc := 4, kind := "virtual" }] }]
    edges := [{ src := 0, dst := 3 }, { src := 3, dst := 2, sites := [0, 1] }]
    entrypoints := [2, 3] }

/-- A document in disorder is read, and what is written then is read and written as it is. -/
theorem decode_normal_form_untidy :
    ∃ g, decode 0 untidy = .ok g ∧ encode g = tidied ∧ decode 0 tidied = .ok g ∧
      decode 5 tidied = .ok (g.stamped 5) ∧ encode (g.stamped 5) = tidied := by
  have hconsistent : untidy.Consistent := by decide
  rcases exists_decode_iff.2 hconsistent with ⟨g, h⟩
  have hwritten : (decode 0 untidy).map encode = .ok tidied := by decide +kernel
  have htidied : encode g = tidied := by
    rw [h] at hwritten
    exact Except.ok.inj hwritten
  have hnormal := decode_normal_form h
  rw [htidied] at hnormal
  exact ⟨g, h, htidied, hnormal.1, hnormal.2.1 5⟩

end Document

end CallAtlas
