import CallAtlas.Graph.Query
import Mathlib.Data.Set.Card

/-!
# Slots After a Bare Edit

Every bare edit is a handful of writes to slots, and every question about a graph
comes down to what its slots hold. This module says once, for each edit, which
slot holds what afterwards; the proofs about invariants, views and documents read
it off here and never open an edit again.

Relations are read off the slots. `Calls` is the edge relation as the callers store
it and `CalledBy` as the callees store it. That they agree is part of the invariant
and not assumed here, so removing an edge or a node is described by what it does to
each side. `Attributes` is the same for the targets of sites.

Removing a node walks over the callees and callers that the node itself names.
`slot?_foldl_modifySlot` turns such a walk into one case distinction, which is
all that the order of the walk amounts to.

## Main definitions

* `Graph.Live`: A number that has a node.
* `Graph.Calls`: An edge, as its caller stores it.
* `Graph.CalledBy`: An edge, as its callee stores it.
* `Graph.edgeSet`: The edges as pairs of numbers.
* `Graph.sitesAt`, `Graph.Attributes`: The recorded sites and their targets.
* `Graph.Keeps`: What an edit of edges and sites leaves alone.

## Theorems

* `IdSet.ncard_members`: The size of a set is the number of its members.
* `Graph.slot?_modifySlot`: Changing a slot changes that slot alone.
* `Graph.slot?_create`: A new node takes the next slot.
* `Graph.slot?_link`, `Graph.slot?_unlink`: What adding and removing an edge writes.
* `Graph.slot?_foldl_modifySlot`: A walk that changes slots changes those it visits.
* `Graph.slot?_eraseSlot`: Emptying a slot leaves the others.
-/

namespace CallAtlas

namespace IdSet

/-- A set is stored as an ascending list, so no number is in it twice. -/
theorem nodup_toList (s : IdSet) : s.toList.Nodup :=
  s.ascending.imp fun h => Int.ne_of_lt h

/-- The size of a set is the number of its members. Counting edges and nodes comes down
    to this, since a slot stores its callees and callers as sets. -/
theorem ncard_members (s : IdSet) : {x | x ∈ s}.ncard = s.size := by
  have hset : {x | x ∈ s} = (s.toList.toFinset : Set Int) := by
    ext x
    simp
  rw [hset, Set.ncard_coe_finset, List.toFinset_card_of_nodup s.nodup_toList, size]

end IdSet

namespace Slot

@[simp] theorem record_node (s : Slot) (site : CallSite) : (s.record site).node = s.node := by
  unfold record
  split <;> rfl

@[simp] theorem record_succs (s : Slot) (site : CallSite) :
    (s.record site).succs = s.succs := by
  unfold record
  split <;> rfl

@[simp] theorem record_preds (s : Slot) (site : CallSite) :
    (s.record site).preds = s.preds := by
  unfold record
  split <;> rfl

@[simp] theorem addTarget_node (s : Slot) (site : CallSite) (dst : Int) :
    (s.addTarget site dst).node = s.node := rfl

@[simp] theorem addTarget_succs (s : Slot) (site : CallSite) (dst : Int) :
    (s.addTarget site dst).succs = s.succs := rfl

@[simp] theorem addTarget_preds (s : Slot) (site : CallSite) (dst : Int) :
    (s.addTarget site dst).preds = s.preds := rfl

@[simp] theorem addTarget_sites (s : Slot) (site : CallSite) (dst : Int) :
    (s.addTarget site dst).sites = s.sites := rfl

end Slot

namespace Graph

/-- A number that has a node. -/
def Live (g : Graph) (i : Int) : Prop := (g.slot? i).isSome

/-- An edge, as its caller stores it. -/
def Calls (g : Graph) (src dst : Int) : Prop := ∃ s, g.slot? src = some s ∧ dst ∈ s.succs

/-- An edge, as its callee stores it. -/
def CalledBy (g : Graph) (dst src : Int) : Prop := ∃ s, g.slot? dst = some s ∧ src ∈ s.preds

/-- The edges as pairs of numbers. -/
def edgeSet (g : Graph) : Set (Int × Int) := {p | g.Calls p.1 p.2}

/-- The sites recorded at a number. -/
def sitesAt (g : Graph) (i : Int) : List CallSite :=
  match g.slot? i with
  | some s => s.sites
  | none => []

/-- A callee that is attributed to a site. -/
def Attributes (g : Graph) (i : Int) (site : CallSite) (d : Int) : Prop :=
  ∃ s, g.slot? i = some s ∧ ∃ t, s.targets.find? site = some t ∧ d ∈ t

theorem mem_edgeSet {g : Graph} {p : Int × Int} : p ∈ g.edgeSet ↔ g.Calls p.1 p.2 := Iff.rfl

/-- A number is live if there is a slot to look into. Most proofs want the slot itself. -/
theorem live_iff_exists {g : Graph} {i : Int} : g.Live i ↔ ∃ s, g.slot? i = some s :=
  Option.isSome_iff_exists

/-- Whether a number is live can be asked of nodes as well as of slots. -/
theorem live_iff_node? {g : Graph} {i : Int} : g.Live i ↔ (g.node? i).isSome := by
  rw [Live, node?, Option.isSome_map]

theorem live_of_slot? {g : Graph} {i : Int} {s : Slot} (h : g.slot? i = some s) : g.Live i :=
  live_iff_exists.2 ⟨s, h⟩

theorem node?_eq_some_iff {g : Graph} {i : Int} {n : Node} :
    g.node? i = some n ↔ ∃ s, g.slot? i = some s ∧ s.node = n := by
  rw [node?, Option.map_eq_some_iff]

theorem calls_iff_mem_succs {g : Graph} {i d : Int} {s : Slot} (hs : g.slot? i = some s) :
    g.Calls i d ↔ d ∈ s.succs := by
  simp only [Calls, hs, Option.some.injEq, exists_eq_left']

theorem calledBy_iff_mem_preds {g : Graph} {i p : Int} {s : Slot} (hs : g.slot? i = some s) :
    g.CalledBy i p ↔ p ∈ s.preds := by
  simp only [CalledBy, hs, Option.some.injEq, exists_eq_left']

/-- Numbers of nodes are numbers of slots. Negative numbers have none, although numbers
    are integers: callers pass on what they were given. -/
theorem slot?_bounds {g : Graph} {i : Int} {s : Slot} (h : g.slot? i = some s) :
    0 ≤ i ∧ i < g.slots.size := by
  unfold slot? at h
  split at h
  · exact absurd h (by simp)
  · -- A slot that is found is one of the array, whether it is empty or not.
    next hneg =>
    have hget : ∃ o, g.slots[i.toNat]? = some o := by
      cases hg : g.slots[i.toNat]? with
      | none => rw [hg] at h; exact absurd h (by simp)
      | some o => exact ⟨o, rfl⟩
    rcases hget with ⟨o, ho⟩
    rcases Array.getElem?_eq_some_iff.1 ho with ⟨hlt, _⟩
    omega

/-- The number after the last slot is free. It is the number that the next node gets. -/
theorem slot?_size (g : Graph) : g.slot? g.slots.size = none := by
  cases h : g.slot? g.slots.size with
  | none => rfl
  | some s => exact absurd (slot?_bounds h).2 (by omega)

/-- Changing a slot changes that slot alone. Every bare edit is made of such changes,
    and this is the only lemma that looks at how slots are stored. -/
theorem slot?_modifySlot (g : Graph) (id i : Int) (f : Slot → Slot) :
    (g.modifySlot id f).slot? i = if i = id then (g.slot? i).map f else g.slot? i := by
  by_cases hid : id < 0
  · -- No slot has a negative number, so there is nothing to change.
    rw [modifySlot, if_pos hid]
    by_cases h : i = id
    · rw [if_pos h, h, slot?, if_pos hid, Option.map_none]
    · rw [if_neg h]
  · rw [modifySlot, if_neg hid]
    by_cases hi : i < 0
    · rw [if_neg (by omega), slot?, slot?, if_pos hi, if_pos hi]
    · -- Both numbers are positions of the array from here on.
      simp only [slot?, if_neg hi, Array.getElem?_modify]
      by_cases h : i = id
      · rw [if_pos h, if_pos (by rw [h])]
        cases g.slots[i.toNat]? with
        | none => rfl
        | some o => cases o <;> rfl
      · rw [if_neg h, if_neg (by omega)]

/-- A walk that changes slots changes exactly those that it visits. The walk is along a
    list without repetitions, so each slot is changed once and the order makes no
    difference. -/
theorem slot?_foldl_modifySlot (f : Slot → Slot) :
    ∀ (ids : List Int) (g : Graph) (i : Int), ids.Nodup →
      (ids.foldl (fun g d => g.modifySlot d f) g).slot? i =
        if i ∈ ids then (g.slot? i).map f else g.slot? i := by
  intro ids
  induction ids with
  | nil =>
      intro g i _
      rw [List.foldl_nil, if_neg (List.not_mem_nil)]
  | cons d rest ih =>
      intro g i hnd
      rw [List.nodup_cons] at hnd
      rw [List.foldl_cons, ih _ _ hnd.2, slot?_modifySlot]
      by_cases hid : i = d
      · -- The rest of the walk does not come back to `d`.
        rw [if_neg (by rw [hid]; exact hnd.1), if_pos hid,
          if_pos (by rw [hid]; exact List.mem_cons_self)]
      · rw [if_neg hid]
        by_cases hir : i ∈ rest
        · rw [if_pos hir, if_pos (List.mem_cons_of_mem d hir)]
        · rw [if_neg hir, if_neg (by simp [hid, hir])]

/-- Emptying a slot leaves the others. The array keeps its length, so the number of a
    removed node is not given to another. -/
theorem slot?_eraseSlot (g : Graph) (id i : Int) (hid : 0 ≤ id) :
    ({ g with slots := g.slots.setIfInBounds id.toNat none } : Graph).slot? i =
      if i = id then none else g.slot? i := by
  by_cases hi : i < 0
  · rw [if_neg (by omega), slot?, slot?, if_pos hi, if_pos hi]
  · simp only [slot?, if_neg hi, Array.getElem?_setIfInBounds]
    by_cases h : i = id
    · rw [if_pos h, if_pos (by rw [h])]
      split <;> rfl
    · rw [if_neg h, if_neg (by omega)]

/-- A new node takes the next slot, without edges or sites. All other slots stay as they
    are, whatever is asked of the unit. -/
theorem slot?_create (g : Graph) (u : CodeUnit) (c : Context) (k : NodeKind) (i : Int) :
    (g.create u c k).1.slot? i =
      if i = g.slots.size then
        some { node := { serial := g.serial, id := g.slots.size, unit := u, context := c, kind := k } }
      else g.slot? i := by
  by_cases hi : i < 0
  · rw [if_neg (by omega), slot?, slot?, if_pos hi, if_pos hi]
  · simp only [slot?, if_neg hi, create, Array.getElem?_push]
    by_cases h : i = g.slots.size
    · rw [if_pos h, if_pos (by omega)]
      rfl
    · rw [if_neg h, if_neg (by omega)]

/-- What an edit of edges and sites leaves alone: all but the edges, the sites and the
    count of edges. -/
structure Keeps (g g' : Graph) : Prop where
  serial : g'.serial = g.serial
  size : g'.slots.size = g.slots.size
  node? : ∀ i, g'.node? i = g.node? i
  index : g'.index = g.index
  byUnit : g'.byUnit = g.byUnit
  live : g'.live = g.live
  entrypoints : g'.entrypoints = g.entrypoints
  entrySet : g'.entrySet = g.entrySet
  frozen : g'.frozen = g.frozen

theorem Keeps.refl (g : Graph) : Keeps g g :=
  ⟨rfl, rfl, fun _ => rfl, rfl, rfl, rfl, rfl, rfl, rfl⟩

theorem Keeps.trans {g₁ g₂ g₃ : Graph} (h₁ : Keeps g₁ g₂) (h₂ : Keeps g₂ g₃) : Keeps g₁ g₃ where
  serial := h₂.serial.trans h₁.serial
  size := h₂.size.trans h₁.size
  node? i := (h₂.node? i).trans (h₁.node? i)
  index := h₂.index.trans h₁.index
  byUnit := h₂.byUnit.trans h₁.byUnit
  live := h₂.live.trans h₁.live
  entrypoints := h₂.entrypoints.trans h₁.entrypoints
  entrySet := h₂.entrySet.trans h₁.entrySet
  frozen := h₂.frozen.trans h₁.frozen

theorem Keeps.live_iff {g g' : Graph} (h : Keeps g g') (i : Int) : g'.Live i ↔ g.Live i := by
  rw [live_iff_node?, live_iff_node?, h.node?]

/-- A change that leaves the node of a slot alone leaves alone everything that `Keeps`
    lists. The edits of edges and sites are made of such changes. -/
theorem keeps_modifySlot (g : Graph) (id : Int) (f : Slot → Slot) (hf : ∀ s, (f s).node = s.node) :
    Keeps g (g.modifySlot id f) := by
  have hnode : ∀ i, (g.modifySlot id f).node? i = g.node? i := by
    intro i
    rw [node?, node?, slot?_modifySlot]
    by_cases h : i = id
    · rw [if_pos h, Option.map_map]
      congr 1
      funext s
      exact hf s
    · rw [if_neg h]
  by_cases hid : id < 0
  · rw [modifySlot, if_pos hid]
    exact Keeps.refl g
  · -- Everything but the slots is copied, and of the slots only the number counts.
    refine ⟨?_, ?_, hnode, ?_, ?_, ?_, ?_, ?_, ?_⟩ <;> rw [modifySlot, if_neg hid]
    simp only [Array.size_modify]

theorem edges_modifySlot (g : Graph) (id : Int) (f : Slot → Slot) :
    (g.modifySlot id f).edges = g.edges := by
  unfold modifySlot
  split <;> rfl

theorem keeps_foldl_modifySlot (f : Slot → Slot) (hf : ∀ s, (f s).node = s.node) :
    ∀ (ids : List Int) (g : Graph), Keeps g (ids.foldl (fun g d => g.modifySlot d f) g) := by
  intro ids
  induction ids with
  | nil => exact fun g => Keeps.refl g
  | cons d rest ih => exact fun g => (keeps_modifySlot g d f hf).trans (ih _)

theorem edges_foldl_modifySlot (f : Slot → Slot) :
    ∀ (ids : List Int) (g : Graph),
      (ids.foldl (fun g d => g.modifySlot d f) g).edges = g.edges := by
  intro ids
  induction ids with
  | nil => exact fun g => rfl
  | cons d rest ih =>
      intro g
      rw [List.foldl_cons, ih, edges_modifySlot]

theorem keeps_recordSite (g : Graph) (id : Int) (site : CallSite) :
    Keeps g (g.recordSite id site) :=
  keeps_modifySlot g id _ fun s => s.record_node site

theorem keeps_addTarget (g : Graph) (src : Int) (site : CallSite) (dst : Int) :
    Keeps g (g.addTarget src site dst) :=
  keeps_modifySlot g src _ fun s => s.record_node site

/-- Adding an edge keeps nodes, indexes and entrypoints, whether or not the edge is new. -/
theorem keeps_link (g : Graph) (src dst : Int) : Keeps g (g.link src dst) := by
  unfold link
  split
  · exact Keeps.refl g
  · split
    · exact Keeps.refl g
    · have hpair := (keeps_modifySlot g src (fun s => { s with succs := s.succs.insert dst })
        fun _ => rfl).trans
        (keeps_modifySlot _ dst (fun d => { d with preds := d.preds.insert src }) fun _ => rfl)
      -- The count of edges is not among the things that are kept.
      exact ⟨hpair.serial, hpair.size, hpair.node?, hpair.index, hpair.byUnit, hpair.live,
        hpair.entrypoints, hpair.entrySet, hpair.frozen⟩

/-- Removing an edge keeps nodes, indexes and entrypoints, and so does removing one that
    is not there. -/
theorem keeps_unlink (g : Graph) (src dst : Int) : Keeps g (g.unlink src dst) := by
  unfold unlink
  split
  · exact Keeps.refl g
  · split
    · have hpair := (keeps_modifySlot g src
        (fun s => { s with succs := s.succs.erase dst, targets := s.targets.mapValues (·.erase dst) })
        fun _ => rfl).trans
        (keeps_modifySlot _ dst (fun d => { d with preds := d.preds.erase src }) fun _ => rfl)
      exact ⟨hpair.serial, hpair.size, hpair.node?, hpair.index, hpair.byUnit, hpair.live,
        hpair.entrypoints, hpair.entrySet, hpair.frozen⟩
    · exact Keeps.refl g

/-- Adding an edge that is there already changes nothing, not even the count of edges. -/
theorem link_of_calls {g : Graph} {src dst : Int} (h : g.Calls src dst) : g.link src dst = g := by
  rcases h with ⟨s, hs, hmem⟩
  rw [link, hs]
  exact if_pos hmem

/-- A new edge is written at both of its ends, which may be one node: a function that
    calls itself has the edge once among its callees and once among its callers. -/
theorem slot?_link {g : Graph} {src dst : Int} (hsrc : g.Live src) (hnew : ¬ g.Calls src dst)
    (i : Int) :
    (g.link src dst).slot? i = (g.slot? i).map fun s =>
      { s with
        succs := if i = src then s.succs.insert dst else s.succs
        preds := if i = dst then s.preds.insert src else s.preds } := by
  rcases live_iff_exists.1 hsrc with ⟨s, hs⟩
  have hmem : dst ∉ s.succs := fun h => hnew ⟨s, hs, h⟩
  simp only [link, hs, if_neg hmem]
  -- Two slots are changed one after the other, and the second may be the first again.
  change ((g.modifySlot src _).modifySlot dst _).slot? i = _
  rw [slot?_modifySlot, slot?_modifySlot]
  by_cases h1 : i = src
  · by_cases h2 : i = dst
    · rw [if_pos h2, if_pos h1, Option.map_map]
      simp only [if_pos h1, if_pos h2]
      rfl
    · rw [if_neg h2, if_pos h1]
      simp only [if_pos h1, if_neg h2]
  · by_cases h2 : i = dst
    · rw [if_pos h2, if_neg h1]
      simp only [if_neg h1, if_pos h2]
    · rw [if_neg h2, if_neg h1]
      simp only [if_neg h1, if_neg h2]
      exact Option.map_id'.symm

theorem edges_link {g : Graph} {src dst : Int} (hsrc : g.Live src) (hnew : ¬ g.Calls src dst) :
    (g.link src dst).edges = g.edges + 1 := by
  rcases live_iff_exists.1 hsrc with ⟨s, hs⟩
  have hmem : dst ∉ s.succs := fun h => hnew ⟨s, hs, h⟩
  simp only [link, hs, if_neg hmem, edges_modifySlot]

/-- Removing an edge that is not there changes nothing. -/
theorem unlink_of_not_calls {g : Graph} {src dst : Int} (h : ¬ g.Calls src dst) :
    g.unlink src dst = g := by
  cases hs : g.slot? src with
  | none => rw [unlink, hs]
  | some s =>
      rw [unlink, hs]
      exact if_neg fun hmem => h ⟨s, hs, hmem⟩

/-- Removing an edge takes it from both of its ends and from every site of the caller.
    The sites themselves stay recorded, without this target. -/
theorem slot?_unlink {g : Graph} {src dst : Int} (h : g.Calls src dst) (i : Int) :
    (g.unlink src dst).slot? i = (g.slot? i).map fun s =>
      { s with
        succs := if i = src then s.succs.erase dst else s.succs
        preds := if i = dst then s.preds.erase src else s.preds
        targets := if i = src then s.targets.mapValues (·.erase dst) else s.targets } := by
  rcases h with ⟨s, hs, hmem⟩
  simp only [unlink, hs, if_pos hmem]
  -- As with a new edge, both ends may be one slot.
  change ((g.modifySlot src _).modifySlot dst _).slot? i = _
  rw [slot?_modifySlot, slot?_modifySlot]
  by_cases h1 : i = src
  · by_cases h2 : i = dst
    · rw [if_pos h2, if_pos h1, Option.map_map]
      simp only [if_pos h1, if_pos h2]
      rfl
    · rw [if_neg h2, if_pos h1]
      simp only [if_pos h1, if_neg h2]
  · by_cases h2 : i = dst
    · rw [if_pos h2, if_neg h1]
      simp only [if_neg h1, if_pos h2]
    · rw [if_neg h2, if_neg h1]
      simp only [if_neg h1, if_neg h2]
      exact Option.map_id'.symm

theorem edges_unlink {g : Graph} {src dst : Int} (h : g.Calls src dst) :
    (g.unlink src dst).edges = g.edges - 1 := by
  rcases h with ⟨s, hs, hmem⟩
  simp only [unlink, hs, if_pos hmem, edges_modifySlot]

end Graph

end CallAtlas
