import CallAtlas.Proofs.Edits

/-!
# Growing a Graph

The closure and the rebuilding of a stored graph only ever add: nodes, sites, calls
and entrypoints. Each addition is an edit that a caller could have made, which is
why what they build is obtainable, and each changes one thing that can be asked of
a graph and leaves the rest. Both are stated here once, so that a proof about a
building loop never looks at slots.

A call is recorded as a site, attributed, and linked in one go. Taken together the
three steps add one site unless it is there, one attribution and one edge.

## Theorems

* `Graph.Obtainable.create`, `Graph.Obtainable.recordSite`, `Graph.Obtainable.call`,
  `Graph.Obtainable.link`, `Graph.Obtainable.markEntrypoint`: Additions at nodes
  lead from obtainable graphs to obtainable graphs.
* `Graph.contains_create`: A graph with a new node has the nodes it had and the new
  one.
* `Graph.sitesAt_recordSite`, `Graph.sitesAt_call`: The sites after an addition.
* `Graph.attributes_call`: A call attributes its callee to its site.
* `Graph.calls_call`: A call is an edge.
* `Graph.sitesAt_recordSites`: Sites are recorded in order and without repetitions.
* `Graph.attributes_callFrom`, `Graph.calls_callFrom`: Calls from many sites.
-/

namespace CallAtlas

/-! ## Lists without repetitions -/

theorem eraseDups_of_nodup {l : List CallSite} (hl : l.Nodup) : l.eraseDups = l := by
  induction l with
  | nil => rfl
  | cons site rest ih =>
      rw [List.nodup_cons] at hl
      have hfilter : (rest.filter fun s => !s == site) = rest := by
        rw [List.filter_eq_self]
        intro s hs
        have hne : s ≠ site := fun h => hl.1 (h ▸ hs)
        simp [hne]
      rw [List.eraseDups_cons, hfilter, ih hl.2]

/-- Recording a further element keeps the recorded ones free of repetitions. -/
theorem eraseDups_concat {α : Type} [BEq α] [LawfulBEq α] (l : List α) (x : α) :
    (l ++ [x]).eraseDups = if x ∈ l.eraseDups then l.eraseDups else l.eraseDups ++ [x] := by
  rw [List.eraseDups_append]
  by_cases hmem : x ∈ l
  · rw [if_pos (List.mem_eraseDups.2 hmem)]
    simp [List.removeAll, hmem]
  · rw [if_neg (fun hm => hmem (List.mem_eraseDups.1 hm))]
    simp [List.removeAll, hmem, List.eraseDups_cons]

namespace Graph

variable {g : Graph}

/-! ## Additions are edits -/

theorem require_of_node? {i : Int} {n : Node} (hid : n.id = i) (h : g.node? i = some n) :
    ∃ s, g.require (some n) = .ok s ∧ s.node.id = i := by
  rcases node?_eq_some_iff.1 h with ⟨s, hs, rfl⟩
  exact ⟨s, require_eq_ok_iff.2 ⟨rfl, by rw [hid]; exact hs⟩, hid⟩

/-- A node of the graph can be named in an edit. What is found is the slot of its number. -/
theorem require_of_contains {n : Node} (hn : g.contains n) :
    ∃ s, g.require (some n) = .ok s ∧ s.node.id = n.id :=
  require_of_node? rfl (contains_iff.1 hn)

section Contains

variable {n m : Node}

/-- The edits below are refused for a frozen graph and for nodes of other graphs.
    Nothing else is in their way, so with nodes of an unfrozen graph each of them is its
    bare edit. -/
theorem addSite_of_contains (hf : g.frozen = false) (hn : g.contains n) (site : CallSite) :
    g.addSite (some n) site = .ok (g.recordSite n.id site) := by
  rcases require_of_contains hn with ⟨s, hs, hid⟩
  exact addSite_eq_ok_iff.2 ⟨hf, s, hs, by rw [hid]⟩

theorem addEdge_of_contains (hf : g.frozen = false) (hn : g.contains n) (hm : g.contains m) :
    g.addEdge (some n) (some m) = .ok (g.link n.id m.id) := by
  rcases require_of_contains hn with ⟨s, hs, hsid⟩
  rcases require_of_contains hm with ⟨d, hd, hdid⟩
  exact addEdge_eq_ok_iff.2 ⟨hf, s, hs, d, hd, by rw [hsid, hdid]⟩

theorem addCall_of_contains (hf : g.frozen = false) (hn : g.contains n) (hm : g.contains m)
    (site : CallSite) : g.addCall (some n) site (some m) =
      .ok ((g.addTarget n.id site m.id).link n.id m.id) := by
  rcases require_of_contains hn with ⟨s, hs, hsid⟩
  rcases require_of_contains hm with ⟨d, hd, hdid⟩
  exact addCall_eq_ok_iff.2 ⟨hf, s, hs, d, hd, by rw [hsid, hdid]⟩

theorem registerEntrypoint_of_contains (hn : g.contains n) :
    g.registerEntrypoint (some n) = .ok (g.markEntrypoint n.id) := by
  rcases require_of_contains hn with ⟨s, hs, hid⟩
  exact registerEntrypoint_eq_ok_iff.2 ⟨s, hs, by rw [hid]⟩

theorem findOrCreate_of_lookup {u : CodeUnit} {c : Context} (hf : g.frozen = false)
    (hnew : g.lookup u c = none) :
    g.findOrCreate (some u) (some c) = .ok (g.create u c .ordinary) :=
  findOrCreate_eq_ok_iff.2 ⟨u, c, rfl, rfl, Or.inr ⟨hnew, hf, rfl⟩⟩

end Contains

namespace Obtainable

/-- Bare edits of an obtainable graph give an obtainable graph, as long as they name
    live numbers. A number is turned into the node that stands in its slot, and the edit
    is then one of the checked ones, which is what obtainable graphs are made by. -/
theorem create (h : Obtainable g) (hf : g.frozen = false) {u : CodeUnit} {c : Context}
    (hnew : g.lookup u c = none) : Obtainable (g.create u c .ordinary).1 := by
  refine h.attempt (e := .findOrCreate (some u) (some c)) ?_
  rw [Graph.attempt, findOrCreate_of_lookup hf hnew]
  rfl

theorem recordSite (h : Obtainable g) (hf : g.frozen = false) {i : Int} (hi : g.Live i)
    (site : CallSite) : Obtainable (g.recordSite i site) := by
  rcases Option.isSome_iff_exists.1 (live_iff_node?.1 hi) with ⟨n, hn⟩
  rcases require_of_node? (h.wellFormed.id_eq hn) hn with ⟨s, hs, rfl⟩
  exact h.attempt (e := .addSite (some n) site) (addSite_eq_ok_iff.2 ⟨hf, s, hs, rfl⟩)

theorem link (h : Obtainable g) (hf : g.frozen = false) {src dst : Int} (hsrc : g.Live src)
    (hdst : g.Live dst) : Obtainable (g.link src dst) := by
  rcases Option.isSome_iff_exists.1 (live_iff_node?.1 hsrc) with ⟨n, hn⟩
  rcases Option.isSome_iff_exists.1 (live_iff_node?.1 hdst) with ⟨m, hm⟩
  rcases require_of_node? (h.wellFormed.id_eq hn) hn with ⟨s, hs, rfl⟩
  rcases require_of_node? (h.wellFormed.id_eq hm) hm with ⟨d, hd, rfl⟩
  exact h.attempt (e := .addEdge (some n) (some m)) (addEdge_eq_ok_iff.2 ⟨hf, s, hs, d, hd, rfl⟩)

theorem call (h : Obtainable g) (hf : g.frozen = false) {src dst : Int} (hsrc : g.Live src)
    (hdst : g.Live dst) (site : CallSite) :
    Obtainable ((g.addTarget src site dst).link src dst) := by
  rcases Option.isSome_iff_exists.1 (live_iff_node?.1 hsrc) with ⟨n, hn⟩
  rcases Option.isSome_iff_exists.1 (live_iff_node?.1 hdst) with ⟨m, hm⟩
  rcases require_of_node? (h.wellFormed.id_eq hn) hn with ⟨s, hs, rfl⟩
  rcases require_of_node? (h.wellFormed.id_eq hm) hm with ⟨d, hd, rfl⟩
  exact h.attempt (e := .addCall (some n) site (some m))
    (addCall_eq_ok_iff.2 ⟨hf, s, hs, d, hd, rfl⟩)

theorem markEntrypoint (h : Obtainable g) {i : Int} (hi : g.Live i) :
    Obtainable (g.markEntrypoint i) := by
  rcases Option.isSome_iff_exists.1 (live_iff_node?.1 hi) with ⟨n, hn⟩
  rcases require_of_node? (h.wellFormed.id_eq hn) hn with ⟨s, hs, rfl⟩
  exact h.attempt (e := .registerEntrypoint (some n)) (registerEntrypoint_eq_ok_iff.2 ⟨s, hs, rfl⟩)

end Obtainable

/-! ## The start -/

/-- A fresh graph has the two synthetic roots and nothing else. -/
theorem contains_fresh {serial : Nat} {n : Node} : (fresh serial).contains n ↔
    n = ⟨serial, rootId, .fakeRoot, .everywhere, .fakeRoot⟩ ∨
      n = ⟨serial, clinitId, .fakeWorldClinit, .everywhere, .fakeWorldClinit⟩ := by
  have hnodes : (fresh serial).nodes =
      [⟨serial, rootId, .fakeRoot, .everywhere, .fakeRoot⟩,
        ⟨serial, clinitId, .fakeWorldClinit, .everywhere, .fakeWorldClinit⟩] := rfl
  rw [(wellFormed_fresh serial).contains_iff_mem_nodes, hnodes, List.mem_cons, List.mem_singleton]

/-! ## A new node -/

/-- A graph with a new node has the nodes it had and the new one. -/
theorem contains_create {u : CodeUnit} {c : Context} {k : NodeKind} {n : Node} :
    (g.create u c k).1.contains n ↔ g.contains n ∨ n = (g.create u c k).2 := by
  rw [contains_iff, contains_iff, node?_create]
  by_cases h : n.id = g.slots.size
  · rw [if_pos h, h, node?_size, Option.some.injEq]
    exact ⟨fun hn => Or.inr hn.symm, fun hn => (hn.resolve_left (by simp)).symm⟩
  · rw [if_neg h]
    refine ⟨Or.inl, fun hn => hn.resolve_right ?_⟩
    rintro rfl
    exact h rfl

/-- The node that is created is not one of those that were there, since its number is free. -/
theorem not_contains_create (g : Graph) (u : CodeUnit) (c : Context) (k : NodeKind) :
    ¬ g.contains (g.create u c k).2 := by
  intro h
  rw [contains_iff] at h
  exact absurd ((node?_size g).symm.trans h) (by simp)

theorem not_live_size (g : Graph) : ¬ g.Live g.slots.size := by
  rw [Live, slot?_size]
  simp

theorem sitesAt_size (g : Graph) : g.sitesAt g.slots.size = [] := by
  rw [sitesAt, slot?_size]

/-- A new node has no sites, and its number had none before, so no list of sites changes. -/
theorem sitesAt_create (g : Graph) (u : CodeUnit) (c : Context) (k : NodeKind) (i : Int) :
    (g.create u c k).1.sitesAt i = g.sitesAt i := by
  rw [sitesAt, sitesAt, slot?_create]
  by_cases h : i = g.slots.size
  · rw [if_pos h, h, slot?_size]
  · rw [if_neg h]

theorem attributes_create {u : CodeUnit} {c : Context} {k : NodeKind} {i : Int} {site : CallSite}
    {d : Int} : (g.create u c k).1.Attributes i site d ↔ g.Attributes i site d := by
  -- The new slot answers like the missing slot did: neither has a target anywhere.
  unfold Attributes
  rw [slot?_create]
  by_cases h : i = g.slots.size
  · rw [if_pos h, h, slot?_size]
    constructor
    · rintro ⟨s, hs, t, ht, _⟩
      rw [Option.some.injEq] at hs
      rw [← hs, Table.find?_empty] at ht
      exact absurd ht (by simp)
    · rintro ⟨s, hs, _⟩
      exact absurd hs (by simp)
  · rw [if_neg h]

theorem not_attributes_fresh {serial : Nat} {i : Int} {site : CallSite} {d : Int} :
    ¬ (fresh serial).Attributes i site d := by
  rw [fresh, attributes_create, attributes_create, Attributes, slot?_bare]
  rintro ⟨s, hs, _⟩
  exact absurd hs (by simp)

theorem not_calls_fresh {serial : Nat} {a b : Int} : ¬ (fresh serial).Calls a b := by
  rw [fresh, calls_create, calls_create, Calls, slot?_bare]
  rintro ⟨s, hs, _⟩
  exact absurd hs (by simp)

theorem sitesAt_fresh (serial : Nat) (i : Int) : (fresh serial).sitesAt i = [] := by
  rw [fresh, sitesAt_create, sitesAt_create, sitesAt, slot?_bare]

/-! ## An entrypoint -/

/-- Marking an entrypoint touches the list and the set of entrypoints. The slots are the
    same, and with them everything that is read off the slots. -/
theorem slots_markEntrypoint (g : Graph) (id : Int) : (g.markEntrypoint id).slots = g.slots := by
  unfold markEntrypoint
  split <;> rfl

theorem serial_markEntrypoint (g : Graph) (id : Int) :
    (g.markEntrypoint id).serial = g.serial := by
  unfold markEntrypoint
  split <;> rfl

theorem slot?_markEntrypoint (g : Graph) (id i : Int) :
    (g.markEntrypoint id).slot? i = g.slot? i := by
  rw [slot?, slot?, slots_markEntrypoint]

theorem contains_markEntrypoint (g : Graph) (id : Int) (n : Node) :
    (g.markEntrypoint id).contains n = g.contains n := by
  rw [contains, contains, slotOf?, slotOf?, slot?_markEntrypoint]

theorem sitesAt_markEntrypoint (g : Graph) (id i : Int) :
    (g.markEntrypoint id).sitesAt i = g.sitesAt i := by
  rw [sitesAt, sitesAt, slot?_markEntrypoint]

theorem attributes_markEntrypoint {id i : Int} {site : CallSite} {d : Int} :
    (g.markEntrypoint id).Attributes i site d ↔ g.Attributes i site d := by
  rw [Attributes, Attributes, slot?_markEntrypoint]

theorem calls_markEntrypoint {id a b : Int} : (g.markEntrypoint id).Calls a b ↔ g.Calls a b := by
  rw [Calls, Calls, slot?_markEntrypoint]

theorem live_markEntrypoint (g : Graph) (id : Int) : (g.markEntrypoint id).live = g.live := by
  unfold markEntrypoint
  split <;> rfl

theorem frozen_markEntrypoint (g : Graph) (id : Int) :
    (g.markEntrypoint id).frozen = g.frozen := by
  unfold markEntrypoint
  split <;> rfl

/-- The list of entrypoints gets the number unless it has it. The test is made on the
    set, so the set has to repeat the list. -/
theorem mem_entrypoints_markEntrypoint (hg : Entered g) {id i : Int} :
    i ∈ (g.markEntrypoint id).entrypoints ↔ i ∈ g.entrypoints ∨ i = id := by
  unfold markEntrypoint
  split
  · next h =>
    refine ⟨Or.inl, ?_⟩
    rintro (hi | rfl)
    · exact hi
    · exact hg.mem_entrySet.1 h
  · rw [List.mem_append, List.mem_singleton]

/-- A new entrypoint comes last. -/
theorem entrypoints_markEntrypoint (hg : Entered g) {id : Int} (hnew : id ∉ g.entrypoints) :
    (g.markEntrypoint id).entrypoints = g.entrypoints ++ [id] := by
  rw [markEntrypoint, if_neg (fun h => hnew (hg.mem_entrySet.1 h))]

/-! ## A site -/

/-- A site is recorded at the end of the list, once. The test is made on the keys of the
    table of targets, which are the recorded sites in an attributed graph. -/
theorem sitesAt_recordSite (hg : Attributed g) {id : Int} (hid : g.Live id) (site : CallSite)
    (i : Int) : (g.recordSite id site).sitesAt i =
      if i = id ∧ site ∉ g.sitesAt id then g.sitesAt i ++ [site] else g.sitesAt i := by
  rcases live_iff_exists.1 hid with ⟨s, hs⟩
  rw [sitesAt, recordSite, slot?_modifySlot]
  by_cases hi : i = id
  · subst hi
    rw [if_pos rfl, hs]
    simp only [Option.map_some, sitesAt, hs, true_and, s.record_sites (hg.keys_eq hs)]
    by_cases hm : site ∈ s.sites
    · rw [if_pos hm, if_neg (fun h => h hm)]
    · rw [if_neg hm, if_pos hm]
  · rw [if_neg hi, if_neg (fun h => hi h.1)]
    rfl

/-- A recorded site has no targets of its own, and targets that it has stay. -/
theorem attributes_recordSite {id : Int} {site : CallSite} {i : Int} {site' : CallSite} {d : Int} :
    (g.recordSite id site).Attributes i site' d ↔ g.Attributes i site' d := by
  unfold Attributes
  rw [recordSite, slot?_modifySlot]
  by_cases hi : i = id
  · rw [if_pos hi]
    cases hs : g.slot? i with
    | none => simp
    | some s =>
        simp only [Option.map_some, Option.some.injEq, exists_eq_left', Slot.find?_record]
        by_cases hsite : site = site'
        · -- The site may be new, and then it has no targets yet.
          subst hsite
          rw [if_pos rfl]
          simp only [Option.some.injEq, exists_eq_left']
          cases s.targets.find? site with
          | none => simp
          | some t => simp
        · rw [if_neg hsite]
  · rw [if_neg hi]

theorem calls_recordSite {id : Int} {site : CallSite} {a b : Int} :
    (g.recordSite id site).Calls a b ↔ g.Calls a b := by
  unfold Calls
  rw [recordSite, slot?_modifySlot]
  by_cases h : a = id
  · simp [if_pos h]
  · rw [if_neg h]

/-! ## An edge and a call -/

/-- An edge does not belong to a site. -/
theorem sitesAt_link {src : Int} (hsrc : g.Live src) (dst i : Int) :
    (g.link src dst).sitesAt i = g.sitesAt i := by
  unfold sitesAt
  cases hs : (g.link src dst).slot? i with
  -- The edge made no slot, so there was none before either.
  | none =>
      have hnode := (keeps_link g src dst).node? i
      rw [node?, node?, hs, Option.map_none, eq_comm, Option.map_eq_none_iff] at hnode
      rw [hnode]
  | some s' =>
      rcases slot?_link_inv hsrc hs with ⟨s, hs', hsites, _⟩
      rw [hs']
      exact hsites

theorem attributes_link {src : Int} (hsrc : g.Live src) {dst i : Int} {site : CallSite} {d : Int} :
    (g.link src dst).Attributes i site d ↔ g.Attributes i site d := by
  unfold Attributes
  constructor
  · rintro ⟨s', hs', t, ht, hd⟩
    rcases slot?_link_inv hsrc hs' with ⟨s, hs, _, htargets, _⟩
    exact ⟨s, hs, t, by rw [← htargets]; exact ht, hd⟩
  · rintro ⟨s, hs, t, ht, hd⟩
    -- The slot after the edge is found first, and it leads back to the one before.
    have hlive : (g.link src dst).Live i := ((keeps_link g src dst).live_iff i).2 (live_of_slot? hs)
    rcases live_iff_exists.1 hlive with ⟨s', hs'⟩
    rcases slot?_link_inv hsrc hs' with ⟨s₁, hs₁, _, htargets, _⟩
    rw [hs, Option.some.injEq] at hs₁
    exact ⟨s', hs', t, by rw [htargets, ← hs₁]; exact ht, hd⟩

theorem keeps_call (g : Graph) (src : Int) (site : CallSite) (dst : Int) :
    Keeps g ((g.addTarget src site dst).link src dst) :=
  (keeps_addTarget g src site dst).trans (keeps_link _ src dst)

/-- Calling from a site records the site, as recording it alone does. -/
theorem sitesAt_call (hg : Attributed g) {src : Int} (hsrc : g.Live src) (site : CallSite)
    (dst i : Int) : ((g.addTarget src site dst).link src dst).sitesAt i =
      if i = src ∧ site ∉ g.sitesAt src then g.sitesAt i ++ [site] else g.sitesAt i := by
  have hsrc' : (g.addTarget src site dst).Live src :=
    ((keeps_addTarget g src site dst).live_iff src).2 hsrc
  have hrecord : (g.addTarget src site dst).sitesAt i = (g.recordSite src site).sitesAt i := by
    unfold sitesAt
    rw [addTarget, recordSite, slot?_modifySlot, slot?_modifySlot]
    by_cases hi : i = src
    · rw [if_pos hi, if_pos hi]
      cases g.slot? i <;> rfl
    · rw [if_neg hi, if_neg hi]
  rw [sitesAt_link hsrc', hrecord, sitesAt_recordSite hg hsrc]

/-- A call attributes its callee to its site. No other site of the caller gets a target. -/
theorem attributes_call {src : Int} (hsrc : g.Live src) {site : CallSite} {dst i : Int}
    {site' : CallSite} {d : Int} :
    ((g.addTarget src site dst).link src dst).Attributes i site' d ↔
      g.Attributes i site' d ∨ (i = src ∧ site' = site ∧ d = dst) := by
  have hsrc' : (g.addTarget src site dst).Live src :=
    ((keeps_addTarget g src site dst).live_iff src).2 hsrc
  rw [attributes_link hsrc']
  unfold Attributes
  rw [addTarget, slot?_modifySlot]
  by_cases hi : i = src
  · subst hi
    rcases live_iff_exists.1 hsrc with ⟨s, hs⟩
    rw [if_pos rfl, hs]
    simp only [Option.map_some, Option.some.injEq, exists_eq_left', Slot.find?_addTarget, true_and]
    by_cases hsite : site = site'
    · subst hsite
      rw [if_pos rfl]
      simp only [Option.some.injEq, exists_eq_left', IdSet.mem_insert]
      cases s.targets.find? site with
      -- A site that was not recorded gets the callee as its only target.
      | none => simp
      | some t => simp [or_comm]
    · rw [if_neg hsite]
      simp [Ne.symm hsite]
  · rw [if_neg hi]
    simp [hi]

/-- A call is an edge, and the only one that is new. -/
theorem calls_call {src : Int} (hsrc : g.Live src) {site : CallSite} {dst a b : Int} :
    ((g.addTarget src site dst).link src dst).Calls a b ↔
      g.Calls a b ∨ (a = src ∧ b = dst) := by
  have hsrc' : (g.addTarget src site dst).Live src :=
    ((keeps_addTarget g src site dst).live_iff src).2 hsrc
  have hsame : (g.addTarget src site dst).Calls a b ↔ g.Calls a b := by
    unfold Calls
    rw [addTarget, slot?_modifySlot]
    by_cases h : a = src
    · simp [if_pos h]
    · rw [if_neg h]
  rw [calls_link hsrc', hsame]

/-! ## Many sites and many calls -/

/-- Records sites of a node, one after the other. -/
def recordSites (g : Graph) (id : Int) (sites : List CallSite) : Graph :=
  sites.foldl (fun g s => g.recordSite id s) g

theorem keeps_recordSites (id : Int) :
    ∀ (sites : List CallSite) (g : Graph), Keeps g (g.recordSites id sites) := by
  intro sites
  induction sites with
  | nil => exact fun g => Keeps.refl g
  | cons s rest ih => exact fun g => (keeps_recordSite g id s).trans (ih _)

theorem attributes_recordSites {id i : Int} {site : CallSite} {d : Int} :
    ∀ {sites : List CallSite} {g : Graph},
      (g.recordSites id sites).Attributes i site d ↔ g.Attributes i site d := by
  intro sites
  induction sites with
  | nil => exact Iff.rfl
  | cons s rest ih => exact ih.trans attributes_recordSite

theorem calls_recordSites {id a b : Int} :
    ∀ {sites : List CallSite} {g : Graph}, (g.recordSites id sites).Calls a b ↔ g.Calls a b := by
  intro sites
  induction sites with
  | nil => exact Iff.rfl
  | cons s rest ih => exact ih.trans calls_recordSite

/-- Recording sites one by one is a run of edits. Each of them keeps the number live,
    which is all that the next one needs. -/
theorem Obtainable.recordSites {id : Int} :
    ∀ (sites : List CallSite) {g : Graph}, Obtainable g → g.frozen = false → g.Live id →
      Obtainable (g.recordSites id sites) := by
  intro sites
  induction sites with
  | nil => exact fun hg _ _ => hg
  | cons s rest ih =>
      intro g hg hf hid
      have hkeeps := keeps_recordSite g id s
      exact ih (hg.recordSite hf hid s) (hkeeps.frozen.trans hf) ((hkeeps.live_iff id).2 hid)

/-- The sites of other nodes are not touched. -/
theorem sitesAt_recordSites_of_ne {id i : Int} (hi : i ≠ id) :
    ∀ (sites : List CallSite) {g : Graph}, WellFormed g → g.Live id →
      (g.recordSites id sites).sitesAt i = g.sitesAt i := by
  intro sites
  induction sites with
  | nil => exact fun _ _ => rfl
  | cons s rest ih =>
      intro g hg hid
      refine (ih (hg.recordSite id s) (((keeps_recordSite g id s).live_iff id).2 hid)).trans ?_
      rw [sitesAt_recordSite hg.toAttributed hid, if_neg (fun h => hi h.1)]

/-- Sites are recorded in order and without repetitions, behind those that were there.
    The sites seen so far are carried along as the list that was given, repetitions and
    all, so that each step appends to it. -/
theorem sitesAt_recordSites {id : Int} :
    ∀ (sites seen : List CallSite) {g : Graph}, WellFormed g → g.Live id →
      g.sitesAt id = seen.eraseDups →
      (g.recordSites id sites).sitesAt id = (seen ++ sites).eraseDups := by
  intro sites
  induction sites with
  | nil =>
      intro seen g _ _ hseen
      rw [List.append_nil]
      exact hseen
  | cons s rest ih =>
      intro seen g hg hid hseen
      -- A site that was seen before is not recorded again, which is how repetitions are left
      -- out.
      have hnext : (g.recordSite id s).sitesAt id = (seen ++ [s]).eraseDups := by
        rw [sitesAt_recordSite hg.toAttributed hid, eraseDups_concat, hseen]
        by_cases hold : s ∈ seen.eraseDups <;> simp [hold]
      have hall := ih (seen ++ [s]) (hg.recordSite id s)
        (((keeps_recordSite g id s).live_iff id).2 hid) hnext
      rw [List.append_assoc, List.singleton_append] at hall
      exact hall

/-- Calls one node from sites of another. -/
def callFrom (g : Graph) (src dst : Int) (sites : List CallSite) : Graph :=
  sites.foldl (fun g s => (g.addTarget src s dst).link src dst) g

theorem keeps_callFrom (src dst : Int) :
    ∀ (sites : List CallSite) (g : Graph), Keeps g (g.callFrom src dst sites) := by
  intro sites
  induction sites with
  | nil => exact fun g => Keeps.refl g
  | cons s rest ih =>
      exact fun g => (keeps_call g src s dst).trans (ih _)

theorem Obtainable.callFrom {src dst : Int} :
    ∀ (sites : List CallSite) {g : Graph}, Obtainable g → g.frozen = false → g.Live src →
      g.Live dst → Obtainable (g.callFrom src dst sites) := by
  intro sites
  induction sites with
  | nil => exact fun hg _ _ _ => hg
  | cons s rest ih =>
      intro g hg hf hsrc hdst
      have hkeeps := keeps_call g src s dst
      exact ih (hg.call hf hsrc hdst s) (hkeeps.frozen.trans hf) ((hkeeps.live_iff src).2 hsrc)
        ((hkeeps.live_iff dst).2 hdst)

/-- Calls from recorded sites record nothing. Only the sites' targets and the edge are new. -/
theorem sitesAt_callFrom {src dst : Int} (i : Int) :
    ∀ (sites : List CallSite) {g : Graph}, WellFormed g → g.Live src → g.Live dst →
      (∀ s ∈ sites, s ∈ g.sitesAt src) → (g.callFrom src dst sites).sitesAt i = g.sitesAt i := by
  intro sites
  induction sites with
  | nil => exact fun _ _ _ _ => rfl
  | cons s rest ih =>
      intro g hg hsrc hdst hsites
      have hkeeps := keeps_call g src s dst
      -- The site is recorded already, so the call does not record it.
      have hone : ∀ j, ((g.addTarget src s dst).link src dst).sitesAt j = g.sitesAt j := by
        intro j
        rw [sitesAt_call hg.toAttributed hsrc]
        exact if_neg fun h => h.2 (hsites s List.mem_cons_self)
      refine (ih (hg.call hsrc hdst s) ((hkeeps.live_iff src).2 hsrc) ((hkeeps.live_iff dst).2 hdst)
        (fun t ht => ?_)).trans (hone i)
      rw [hone]
      exact hsites t (List.mem_cons_of_mem _ ht)

/-- The callee becomes a target of every one of the sites. -/
theorem attributes_callFrom {src dst i : Int} {site : CallSite} {d : Int} :
    ∀ {sites : List CallSite} {g : Graph}, g.Live src →
      ((g.callFrom src dst sites).Attributes i site d ↔
        g.Attributes i site d ∨ (i = src ∧ site ∈ sites ∧ d = dst)) := by
  intro sites
  induction sites with
  | nil =>
      intro g _
      simp [callFrom]
  | cons s rest ih =>
      intro g hsrc
      have hkeeps := keeps_call g src s dst
      -- The first call is made and the others follow, so their targets come on top of its
      -- target.
      refine (ih ((hkeeps.live_iff src).2 hsrc)).trans ?_
      rw [attributes_call hsrc, List.mem_cons]
      constructor
      · rintro ((hold | ⟨hi, hs, hd⟩) | ⟨hi, hs, hd⟩)
        · exact Or.inl hold
        · exact Or.inr ⟨hi, Or.inl hs, hd⟩
        · exact Or.inr ⟨hi, Or.inr hs, hd⟩
      · rintro (hold | ⟨hi, hs | hs, hd⟩)
        · exact Or.inl (Or.inl hold)
        · exact Or.inl (Or.inr ⟨hi, hs, hd⟩)
        · exact Or.inr ⟨hi, hs, hd⟩

/-- Many calls from one node to another are one edge. Without a site there is no call
    and hence no edge. -/
theorem calls_callFrom {src dst a b : Int} :
    ∀ {sites : List CallSite} {g : Graph}, g.Live src →
      ((g.callFrom src dst sites).Calls a b ↔
        g.Calls a b ∨ (sites ≠ [] ∧ a = src ∧ b = dst)) := by
  intro sites
  induction sites with
  | nil =>
      intro g _
      simp [callFrom]
  | cons s rest ih =>
      intro g hsrc
      have hkeeps := keeps_call g src s dst
      refine (ih ((hkeeps.live_iff src).2 hsrc)).trans ?_
      -- The first call makes the edge, so the rest of them is of no consequence.
      rw [calls_call hsrc]
      constructor
      · rintro ((hold | hnew) | ⟨_, hnew⟩)
        · exact Or.inl hold
        · exact Or.inr ⟨by simp, hnew⟩
        · exact Or.inr ⟨by simp, hnew⟩
      · rintro (hold | ⟨_, hnew⟩)
        · exact Or.inl (Or.inl hold)
        · exact Or.inl (Or.inr hnew)

end Graph

end CallAtlas
