import CallAtlas.Proofs.Closure.Answers
import CallAtlas.Proofs.Growth

/-!
# The Invariant of the Closure

While the closure reads a node, its graph is never wrong and not yet complete. The
two halves of this are kept apart. `Sound` says of the graph alone that everything in
it has a reason: each ordinary node belongs to every closed set of units, each
attribution of a callee to a site is one that the specification allows, each edge
comes from an attribution. `Underway` adds the worklist and the caches: a node is
waiting, being read, or finished, and a finished node has everything that its code
asks for.

A waiting node has no sites. That is what makes the recorded sites of a finished node
come out in the order of its code, although nodes are made in the middle of reading
others.

All changes of the graph are of three kinds, a new node, a new site of the node being
read, and a call. A call from the root also registers its callee, so it is taken
together with that; a call from the fake world-clinit node comes without a site in any
code. There is one lemma for each kind.

## Main definitions

* `Graph.called`: The graph after a call as the closure makes it.
* `Closure.Due`: The specification allows an attribution.
* `Closure.Sound`: Everything in a graph has a reason.
* `Closure.Finished`: A node has everything that its code asks for.
* `Closure.Underway`: Nodes wait, are being read, or are finished.
* `Closure.Reading`: Initializers are there as well.
* `Closure.Grows`: Nodes and attributions stay.

## Theorems

* `Graph.WellFormed.live_le_of_everywhere`: A graph with one context has no more nodes than
  units.
* `Closure.Underway.newNode`, `Closure.Underway.call`, `Closure.Underway.recordSite`:
  The three kinds of changes.
-/

namespace CallAtlas

namespace Graph

/-! ## A call as the closure makes it -/

/-- The graph after a call. What the fake root calls is an entrypoint. -/
def called (g : Graph) (n : Node) (site : CallSite) (m : Node) : Graph :=
  ((if n.id = rootId then g.markEntrypoint m.id else g).addTarget n.id site m.id).link n.id m.id

section Called

variable {g : Graph} {n m : Node} {site : CallSite}

/-- Nodes other than the fake root call without registering anything. -/
theorem called_of_ne (h : n.id ≠ rootId) :
    g.called n site m = (g.addTarget n.id site m.id).link n.id m.id := by
  rw [called, if_neg h]

/-- Registering the callee touches no slot, so a call can be looked at without it. -/
theorem slot?_entered (g : Graph) (n m : Node) (i : Int) :
    (if n.id = rootId then g.markEntrypoint m.id else g).slot? i = g.slot? i := by
  split
  · exact slot?_markEntrypoint g m.id i
  · rfl

theorem live_entered (g : Graph) (n m : Node) (i : Int) :
    (if n.id = rootId then g.markEntrypoint m.id else g).Live i ↔ g.Live i := by
  rw [Live, Live, slot?_entered]

theorem keeps_called (g : Graph) (n : Node) (site : CallSite) (m : Node) :
    Keeps (if n.id = rootId then g.markEntrypoint m.id else g) (g.called n site m) :=
  keeps_call _ n.id site m.id

theorem contains_called {k : Node} : (g.called n site m).contains k ↔ g.contains k := by
  rw [(keeps_called g n site m).contains_iff, contains, contains, slotOf?, slotOf?, slot?_entered]

theorem live_called : (g.called n site m).live = g.live := by
  rw [(keeps_called g n site m).live]
  split
  · exact live_markEntrypoint g m.id
  · rfl

theorem frozen_called : (g.called n site m).frozen = g.frozen := by
  rw [(keeps_called g n site m).frozen]
  split
  · exact frozen_markEntrypoint g m.id
  · rfl

/-- What a call attributes, with or without an entrypoint. These lemmas repeat those of
    a plain call, so that the two steps of `called` need not be told apart anywhere
    else. -/
theorem attributes_called (hn : g.contains n) {i : Int} {site' : CallSite} {d : Int} :
    (g.called n site m).Attributes i site' d ↔
      g.Attributes i site' d ∨ (i = n.id ∧ site' = site ∧ d = m.id) := by
  rw [called, attributes_call ((live_entered g n m n.id).2 (live_of_contains hn)), Attributes,
    slot?_entered]
  rfl

theorem calls_called (hn : g.contains n) {a b : Int} :
    (g.called n site m).Calls a b ↔ g.Calls a b ∨ (a = n.id ∧ b = m.id) := by
  rw [called, calls_call ((live_entered g n m n.id).2 (live_of_contains hn)), Calls, slot?_entered]
  rfl

theorem sitesAt_called (hg : WellFormed g) (hn : g.contains n) (hm : g.contains m) (i : Int) :
    (g.called n site m).sitesAt i =
      if i = n.id ∧ site ∉ g.sitesAt n.id then g.sitesAt i ++ [site] else g.sitesAt i := by
  have hwf : WellFormed (if n.id = rootId then g.markEntrypoint m.id else g) := by
    split
    · exact hg.markEntrypoint (live_of_contains hm)
    · exact hg
  rw [called, sitesAt_call hwf.toAttributed ((live_entered g n m n.id).2 (live_of_contains hn))]
  unfold sitesAt
  rw [slot?_entered, slot?_entered]

/-- A call makes its callee an entrypoint if the caller is the fake root. -/
theorem mem_entrypoints_called (hg : Entered g) {i : Int} :
    i ∈ (g.called n site m).entrypoints ↔ i ∈ g.entrypoints ∨ (n.id = rootId ∧ i = m.id) := by
  rw [(keeps_called g n site m).entrypoints]
  by_cases h : n.id = rootId
  · rw [if_pos h, mem_entrypoints_markEntrypoint hg]
    simp [h]
  · rw [if_neg h]
    simp [h]

/-- A call is a run of edits: the callee is registered first and then called. -/
theorem Obtainable.called (hg : Obtainable g) (hf : g.frozen = false) (hn : g.contains n)
    (hm : g.contains m) (site : CallSite) : Obtainable (g.called n site m) := by
  have hn' := (live_entered g n m n.id).2 (live_of_contains hn)
  have hm' := (live_entered g n m m.id).2 (live_of_contains hm)
  refine Obtainable.call ?_ ?_ hn' hm' site
  · split
    · exact hg.markEntrypoint (live_of_contains hm)
    · exact hg
  · split
    · rw [frozen_markEntrypoint]
      exact hf
    · exact hf

end Called

/-! ## Graphs with one context -/

section Everywhere

variable {g : Graph} (hg : WellFormed g)
  (heverywhere : ∀ {n}, g.contains n → n.context = .everywhere)
include hg heverywhere

/-- If all nodes have the same context, a unit has one node. -/
theorem WellFormed.lookup_of_everywhere {n : Node} (hn : g.contains n) :
    g.lookup n.unit .everywhere = some n :=
  hg.lookup_eq_some_iff.2 ⟨contains_iff.1 hn, rfl, heverywhere hn⟩

/-- There are no more nodes than units, and two roots. Nodes are mapped to their units,
    and the map is injective because all nodes have the same context. -/
theorem WellFormed.live_le_of_everywhere {units : Set CodeUnit} {bound : Nat}
    (hunits : ∀ {n}, g.contains n → n.kind = .ordinary → n.unit ∈ units) (hfinite : units.Finite)
    (hcard : units.ncard ≤ bound) : g.live ≤ bound + 2 := by
  let unitOf (i : Int) : CodeUnit := ((g.node? i).map fun n => n.unit).getD .fakeRoot
  let all : Set CodeUnit := insert .fakeRoot (insert .fakeWorldClinit units)
  have hunit : ∀ {n}, g.contains n → unitOf n.id = n.unit := by
    intro n hn
    simp only [unitOf, contains_iff.1 hn, Option.map_some, Option.getD_some]
  have hmaps : ∀ i ∈ {i | g.Live i}, unitOf i ∈ all := by
    intro i hi
    rcases hg.exists_contains hi with ⟨n, hn, rfl⟩
    rw [hunit hn]
    rcases hg.kind_cases hn with ⟨_, _, hu⟩ | ⟨_, _, hu⟩ | ⟨_, _, hk⟩
    · exact Or.inl hu
    · exact Or.inr (Or.inl hu)
    · exact Or.inr (Or.inr (hunits hn hk))
  -- Units tell nodes apart, since every node has the same context.
  have hinj : Set.InjOn unitOf {i | g.Live i} := by
    intro i hi j hj heq
    rcases hg.exists_contains hi with ⟨n, hn, rfl⟩
    rcases hg.exists_contains hj with ⟨m, hm, rfl⟩
    rw [hunit hn, hunit hm] at heq
    have hlookup := hg.lookup_of_everywhere heverywhere hn
    rw [heq, hg.lookup_of_everywhere heverywhere hm, Option.some.injEq] at hlookup
    rw [hlookup]
  have hmapped : {i | g.Live i}.ncard ≤ all.ncard :=
    Set.ncard_le_ncard_of_injOn unitOf hmaps hinj ((hfinite.insert _).insert _)
  have hall : all.ncard ≤ bound + 2 :=
    calc all.ncard ≤ (insert CodeUnit.fakeWorldClinit units).ncard + 1 := Set.ncard_insert_le _ _
      _ ≤ units.ncard + 1 + 1 := Nat.add_le_add_right (Set.ncard_insert_le _ _) 1
      _ ≤ bound + 2 := Nat.add_le_add_right hcard 2
  -- The count that the graph keeps is the number of live numbers.
  rw [hg.live_eq]
  omega

end Everywhere

theorem Attributes.live {g : Graph} {i : Int} {site : CallSite} {d : Int}
    (h : g.Attributes i site d) : g.Live i := by
  rcases h with ⟨s, hs, _⟩
  exact live_of_slot? hs

end Graph

namespace Closure

open CallAtlas.Graph (rootId clinitId)

/-! ## Everything in a graph has a reason -/

/-- The specification allows that a callee is attributed to a site of a node. The fake
    world-clinit node calls initializers, and every other node calls candidates of the
    sites in its code. -/
def Due (a : Answers) (only : Bool) (entries : List CodeUnit) (g : Graph) (n : Node)
    (site : CallSite) (m : Node) : Prop :=
  match n.kind with
  | .fakeWorldClinit => site.target = m.unit.ref ∧ site.kind = .static ∧
      ∃ k, g.contains k ∧ k.kind = .ordinary ∧ a.initializer k.unit = some m.unit
  | _ => site ∈ a.code entries n ∧ a.Candidate only n.unit site m.unit

/-- Everything in a graph has a reason. Its ordinary nodes are in every closed set, its
    attributions are due, its edges belong to sites, and its entrypoints are what the
    fake root calls. Nothing here says that something is missing, so a closure satisfies
    this from its first step on. -/
structure Sound (a : Answers) (only : Bool) (entries : List CodeUnit) (g : Graph) : Prop where
  obtainable : g.Obtainable
  thawed : g.frozen = false
  everywhere : ∀ {n}, g.contains n → n.context = .everywhere
  mentioned : ∀ {n}, g.contains n → n.kind = .ordinary → a.Mentions n.unit
  needed : ∀ {n}, g.contains n → n.kind = .ordinary →
    ∀ units, a.Closed only entries units → n.unit ∈ units
  due : ∀ {n site d}, g.contains n → g.Attributes n.id site d →
    ∃ m, g.contains m ∧ m.id = d ∧ Due a only entries g n site m
  attributed : ∀ {i d}, g.Calls i d → ∃ site, g.Attributes i site d
  entered : ∀ {d}, d ∈ g.entrypoints ↔ g.Calls rootId d

variable {σ : Type} {a : Answers} {only : Bool} {entries : List CodeUnit}

/-- What is due stays due while nodes are added. Only the calls of the fake world-clinit
    node refer to other nodes. -/
theorem Due.mono {g g' : Graph} (hgrow : ∀ k, g.contains k → g'.contains k) {n m : Node}
    {site : CallSite} (h : Due a only entries g n site m) : Due a only entries g' n site m := by
  unfold Due at h ⊢
  split
  · next hk =>
    simp only [hk] at h
    rcases h with ⟨htarget, hstatic, k, hkg, hk⟩
    exact ⟨htarget, hstatic, k, hgrow k hkg, hk⟩
  · next hk =>
    split at h
    · next hk' => exact absurd hk' hk
    · exact h

namespace Sound

variable {g : Graph}

theorem wellFormed (hg : Sound a only entries g) : g.WellFormed := hg.obtainable.wellFormed

/-- A unit that the hierarchy mentions has an ordinary node, if it has one. -/
theorem ordinary {bound : Nat} (ha : a.Admissible bound) (hg : Sound a only entries g) {m : Node}
    (hm : g.contains m) (hmem : a.Mentions m.unit) : m.kind = .ordinary := by
  have hsyn := ha.not_synthetic hmem
  rcases hg.wellFormed.kind_cases hm with ⟨_, _, hu⟩ | ⟨_, _, hu⟩ | ⟨_, _, hk⟩
  · exact absurd hu hsyn.1
  · exact absurd hu hsyn.2
  · exact hk

/-- A new node for a unit that every closed set has. Nothing calls it yet, so apart from
    the node itself nothing needs a reason. -/
theorem create (hg : Sound a only entries g) {u : CodeUnit} (hnew : g.lookup u .everywhere = none)
    (hmem : a.Mentions u) (hneed : ∀ units, a.Closed only entries units → u ∈ units) :
    Sound a only entries (g.create u .everywhere .ordinary).1 where
  obtainable := hg.obtainable.create hg.thawed hnew
  thawed := hg.thawed
  everywhere := by
    intro n hn
    rcases Graph.contains_create.1 hn with hn | rfl
    · exact hg.everywhere hn
    · rfl
  mentioned := by
    intro n hn hk
    rcases Graph.contains_create.1 hn with hn | rfl
    · exact hg.mentioned hn hk
    · exact hmem
  needed := by
    intro n hn hk
    rcases Graph.contains_create.1 hn with hn | rfl
    · exact hg.needed hn hk
    · exact hneed
  due := by
    intro n site d hn hat
    rw [Graph.attributes_create] at hat
    -- What has an attribution was there before.
    have hn' : g.contains n := by
      rcases Graph.contains_create.1 hn with hn | rfl
      · exact hn
      · exact absurd hat.live (Graph.not_live_size g)
    rcases hg.due hn' hat with ⟨m, hm, hd, hdue⟩
    exact ⟨m, Graph.contains_create.2 (Or.inl hm), hd,
      hdue.mono fun k hk => Graph.contains_create.2 (Or.inl hk)⟩
  attributed := by
    intro i d hcalls
    rcases hg.attributed (Graph.calls_create.1 hcalls) with ⟨site, hsite⟩
    exact ⟨site, Graph.attributes_create.2 hsite⟩
  entered := by
    intro d
    rw [Graph.calls_create]
    exact hg.entered

/-- A call that is due. The callee becomes an entrypoint exactly if the caller is the
    fake root, which is how entrypoints and the edges of the root stay in step. -/
theorem call (hg : Sound a only entries g) {n m : Node} {site : CallSite} (hn : g.contains n)
    (hm : g.contains m) (hdue : Due a only entries g n site m) :
    Sound a only entries (g.called n site m) where
  obtainable := hg.obtainable.called hg.thawed hn hm site
  thawed := Graph.frozen_called.trans hg.thawed
  everywhere hk := hg.everywhere (Graph.contains_called.1 hk)
  mentioned hk := hg.mentioned (Graph.contains_called.1 hk)
  needed hk := hg.needed (Graph.contains_called.1 hk)
  due := by
    intro k site' d hk hat
    have hgrow : ∀ k, g.contains k → (g.called n site m).contains k :=
      fun k => Graph.contains_called.2
    rw [Graph.contains_called] at hk
    -- An attribution is an old one, with its old reason, or the one that is made now.
    rcases (Graph.attributes_called hn).1 hat with hat | ⟨hi, rfl, rfl⟩
    · rcases hg.due hk hat with ⟨m', hm', hd, hdue'⟩
      exact ⟨m', hgrow m' hm', hd, hdue'.mono hgrow⟩
    · rw [Graph.eq_of_contains hk hn hi]
      exact ⟨m, hgrow m hm, rfl, hdue.mono hgrow⟩
  attributed := by
    intro i d hcalls
    rcases (Graph.calls_called hn).1 hcalls with hcalls | ⟨rfl, rfl⟩
    · rcases hg.attributed hcalls with ⟨site', hsite⟩
      exact ⟨site', (Graph.attributes_called hn).2 (Or.inl hsite)⟩
    · exact ⟨site, (Graph.attributes_called hn).2 (Or.inr ⟨rfl, rfl, rfl⟩)⟩
  -- The root calls the callee now exactly if it is the caller, and then the callee is
  -- registered.
  entered := by
    intro d
    rw [Graph.mem_entrypoints_called hg.wellFormed.toEntered, Graph.calls_called hn, hg.entered]
    simp only [eq_comm]

/-- Sites without targets need no reason, so an edit that only records sites may be made freely. -/
theorem congr (hg : Sound a only entries g) {g' : Graph} (hob : g'.Obtainable)
    (hkeeps : g.Keeps g')
    (hattributes : ∀ {i site d}, g'.Attributes i site d ↔ g.Attributes i site d)
    (hcalls : ∀ {i d}, g'.Calls i d ↔ g.Calls i d) : Sound a only entries g' := by
  refine ⟨hob, hkeeps.frozen.trans hg.thawed, fun hk => hg.everywhere (hkeeps.contains_iff.1 hk),
    fun hk => hg.mentioned (hkeeps.contains_iff.1 hk),
    fun hk => hg.needed (hkeeps.contains_iff.1 hk), ?_, ?_, ?_⟩
  · -- The reasons are those of before, since the edit attributes nothing.
    intro k site' d hk hat
    rcases hg.due (hkeeps.contains_iff.1 hk) (hattributes.1 hat) with ⟨m, hm, hd, hdue⟩
    exact ⟨m, hkeeps.contains_iff.2 hm, hd, hdue.mono fun k => hkeeps.contains_iff.2⟩
  · intro i d hcall
    rcases hg.attributed (hcalls.1 hcall) with ⟨site', hsite⟩
    exact ⟨site', hattributes.2 hsite⟩
  · intro d
    rw [hkeeps.entrypoints, hcalls]
    exact hg.entered

end Sound

/-! ## Nodes wait, are being read, or are finished -/

/-- Every candidate of a site has a node, and it is attributed to the site. -/
def Linked (a : Answers) (only : Bool) (g : Graph) (n : Node) (site : CallSite) : Prop :=
  ∀ v, a.Candidate only n.unit site v → ∃ m, g.contains m ∧ m.unit = v ∧ g.Attributes n.id site m.id

/-- A node has everything that its code asks for. -/
structure Finished (a : Answers) (only : Bool) (entries : List CodeUnit) (g : Graph) (n : Node) :
    Prop where
  sites : g.sitesAt n.id = (a.code entries n).eraseDups
  linked : ∀ site ∈ a.code entries n, Linked a only g n site

/-- Nodes wait, are being read, or are finished. The node `busy` is being read. The
    count `balance` says that every node but the fake world-clinit node waits or was
    taken off the worklist, and that no node is taken off twice. -/
structure Underway (a : Answers) (only : Bool) (entries : List CodeUnit) (busy : Option Node)
    (c : Closure σ) : Prop extends Sound a only entries c.graph where
  candidates_eq : ∀ {t k us}, c.candidates.find? (t, k) = some us → us = a.found t k
  wrappers_eq : ∀ {i site o}, c.wrappers.find? (i, site) = some o →
    ∃ n, c.graph.contains n ∧ n.id = i ∧ o = a.wrapper n.unit site
  root_sites : c.graph.sitesAt rootId = Answers.entrySites entries
  busy_node : ∀ {n}, busy = some n → c.graph.contains n ∧ n.kind ≠ .fakeWorldClinit
  worklist_nodup : c.worklist.Nodup
  waiting : ∀ {n}, n ∈ c.worklist →
    c.graph.contains n ∧ n.kind ≠ .fakeWorldClinit ∧ busy ≠ some n
  unread : ∀ {n}, n ∈ c.worklist → n.kind = .ordinary → c.graph.sitesAt n.id = []
  finished : ∀ {n}, c.graph.contains n → n.kind ≠ .fakeWorldClinit → n ∉ c.worklist →
    busy ≠ some n → Finished a only entries c.graph n
  balance : c.graph.live = c.worklist.length + c.pops + 1

/-- Nodes wait, are being read, or are finished, and initializers have nodes. -/
structure Reading (a : Answers) (only : Bool) (entries : List CodeUnit) (busy : Option Node)
    (c : Closure σ) : Prop extends Underway a only entries busy c where
  initialized : ∀ {n}, c.graph.contains n → n.kind = .ordinary →
    ∀ v, a.initializer n.unit = some v → ∃ m, c.graph.contains m ∧ m.unit = v

/-- Nodes and attributions stay. -/
structure Grows (g g' : Graph) : Prop where
  contains : ∀ {n}, g.contains n → g'.contains n
  attributes : ∀ {i site d}, g.Attributes i site d → g'.Attributes i site d

theorem Grows.refl (g : Graph) : Grows g g := ⟨id, id⟩

theorem Grows.trans {g₁ g₂ g₃ : Graph} (h₁ : Grows g₁ g₂) (h₂ : Grows g₂ g₃) : Grows g₁ g₃ :=
  ⟨fun h => h₂.contains (h₁.contains h), fun h => h₂.attributes (h₁.attributes h)⟩

theorem Linked.mono {g g' : Graph} (hgrow : Grows g g') {n : Node} {site : CallSite}
    (h : Linked a only g n site) : Linked a only g' n site := by
  intro v hv
  rcases h v hv with ⟨m, hm, hu, hat⟩
  exact ⟨m, hgrow.contains hm, hu, hgrow.attributes hat⟩

theorem Finished.mono {g g' : Graph} (hgrow : Grows g g') {n : Node}
    (hsites : g'.sitesAt n.id = g.sitesAt n.id) (h : Finished a only entries g n) :
    Finished a only entries g' n :=
  ⟨hsites.trans h.sites, fun site hsite => (h.linked site hsite).mono hgrow⟩

theorem grows_called {g : Graph} {n : Node} (hn : g.contains n) (site : CallSite) (m : Node) :
    Grows g (g.called n site m) :=
  ⟨Graph.contains_called.2, fun h => (Graph.attributes_called hn).2 (Or.inl h)⟩

theorem grows_recordSite (g : Graph) (i : Int) (site : CallSite) : Grows g (g.recordSite i site) :=
  ⟨(Graph.keeps_recordSite g i site).contains_iff.2, Graph.attributes_recordSite.2⟩

theorem grows_create (g : Graph) (u : CodeUnit) : Grows g (g.create u .everywhere .ordinary).1 :=
  ⟨fun h => Graph.contains_create.2 (Or.inl h), Graph.attributes_create.2⟩

namespace Underway

variable {busy : Option Node} {c : Closure σ}

/-- A change of the graph that adds no node and touches the sites of the node being read
    or of the fake world-clinit node only. All other nodes wait or are finished, and
    stay so. -/
theorem edit (hc : Underway a only entries busy c) {g : Graph} (hsound : Sound a only entries g)
    (hgrow : Grows c.graph g) (hsame : ∀ {n}, g.contains n → c.graph.contains n)
    (hlive : g.live = c.graph.live) (hroot : g.sitesAt rootId = c.graph.sitesAt rootId)
    (hsites : ∀ {n}, c.graph.contains n → n.kind ≠ .fakeWorldClinit → busy ≠ some n →
      g.sitesAt n.id = c.graph.sitesAt n.id) :
    Underway a only entries busy { c with graph := g } where
  toSound := hsound
  candidates_eq := hc.candidates_eq
  wrappers_eq := by
    intro i site o ho
    rcases hc.wrappers_eq ho with ⟨n, hn, hi, hw⟩
    exact ⟨n, hgrow.contains hn, hi, hw⟩
  root_sites := hroot.trans hc.root_sites
  busy_node hn := ⟨hgrow.contains (hc.busy_node hn).1, (hc.busy_node hn).2⟩
  worklist_nodup := hc.worklist_nodup
  waiting hn := ⟨hgrow.contains (hc.waiting hn).1, (hc.waiting hn).2⟩
  -- A node that waits is not being read, so its sites are not touched.
  unread := by
    intro n hn hk
    rcases hc.waiting hn with ⟨hin, hkind, hbusy⟩
    rw [hsites hin hkind hbusy]
    exact hc.unread hn hk
  finished := by
    intro n hn hk hwait hbusy
    exact (hc.finished (hsame hn) hk hwait hbusy).mono hgrow (hsites (hsame hn) hk hbusy)
  balance := hlive.trans hc.balance

/-- A call from the node being read or from the fake world-clinit node. It may record
    its site, and these two are the only nodes whose sites may still grow. -/
theorem call (hc : Underway a only entries busy c) {n m : Node} (site : CallSite)
    (hn : c.graph.contains n) (hfrom : busy = some n ∨ n.kind = .fakeWorldClinit)
    (hm : c.graph.contains m) (hdue : Due a only entries c.graph n site m) :
    Underway a only entries busy { c with graph := c.graph.called n site m } := by
  have hwf := hc.wellFormed
  refine hc.edit (hc.toSound.call hn hm hdue) (grows_called hn site m) Graph.contains_called.1
    Graph.live_called ?_ ?_
  · -- Only sites that the root has already are due there.
    rw [Graph.sitesAt_called hwf hn hm, if_neg]
    rintro ⟨hroot, hsite⟩
    have hkind := (hwf.kind_eq_fakeRoot_iff hn).2 hroot.symm
    rw [Due, hkind, Answers.code, hkind, ← hc.root_sites, hroot] at hdue
    exact hsite hdue.1
  · intro k hk hkind hbusy
    rw [Graph.sitesAt_called hwf hn hm, if_neg]
    rintro ⟨hid, _⟩
    have heq := Graph.eq_of_contains hk hn hid
    rw [heq] at hkind hbusy
    exact hfrom.elim hbusy hkind

/-- A site of the node being read. It is in the code of the node, which is also why
    recording it for the root changes nothing: the root has all of its sites from the
    start. -/
theorem recordSite {n : Node} (hc : Underway a only entries (some n) c) {site : CallSite}
    (hsite : site ∈ a.code entries n) :
    Underway a only entries (some n) { c with graph := c.graph.recordSite n.id site } := by
  have hwf := hc.wellFormed
  have hn := (hc.busy_node rfl).1
  have hkeeps := Graph.keeps_recordSite c.graph n.id site
  have hlive := Graph.live_of_contains hn
  have hsound := hc.toSound.congr (hc.obtainable.recordSite hc.thawed hlive site) hkeeps
    Graph.attributes_recordSite Graph.calls_recordSite
  refine hc.edit hsound (grows_recordSite _ _ _) hkeeps.contains_iff.1 hkeeps.live ?_ ?_
  · -- The root has this site already, since its code is what it started with.
    rw [Graph.sitesAt_recordSite hwf.toAttributed hlive, if_neg]
    rintro ⟨hroot, hnew⟩
    rw [Answers.code, (hwf.kind_eq_fakeRoot_iff hn).2 hroot.symm] at hsite
    rw [← hroot, hc.root_sites] at hnew
    exact hnew hsite
  · -- Any other node keeps its sites, since numbers tell nodes apart.
    intro k hk _ hbusy
    rw [Graph.sitesAt_recordSite hwf.toAttributed hlive, if_neg]
    rintro ⟨hid, _⟩
    exact hbusy (congrArg some (Graph.eq_of_contains hk hn hid).symm)

/-- A new node waits. It has no sites yet, and nothing that is finished refers to it. -/
theorem newNode (hc : Underway a only entries busy c) {u : CodeUnit}
    (hnew : c.graph.lookup u .everywhere = none) (hmem : a.Mentions u)
    (hneed : ∀ units, a.Closed only entries units → u ∈ units) :
    Underway a only entries busy (c.newNode u).2 := by
  have hfresh := Graph.not_contains_create c.graph u .everywhere .ordinary
  have hgrow := grows_create c.graph u
  refine ⟨hc.toSound.create hnew hmem hneed, hc.candidates_eq, ?_, ?_, ?_, ?_, ?_, ?_, ?_, ?_⟩
  · intro i site o ho
    rcases hc.wrappers_eq ho with ⟨n, hn, hi, hw⟩
    exact ⟨n, hgrow.contains hn, hi, hw⟩
  · exact (Graph.sitesAt_create _ _ _ _ _).trans hc.root_sites
  · exact fun hn => ⟨hgrow.contains (hc.busy_node hn).1, (hc.busy_node hn).2⟩
  · exact List.nodup_cons.2 ⟨fun h => hfresh (hc.waiting h).1, hc.worklist_nodup⟩
  · intro n hn
    rcases List.mem_cons.1 hn with rfl | hn
    · refine ⟨Graph.contains_create.2 (Or.inr rfl), by simp, ?_⟩
      exact fun h => hfresh (hc.busy_node h).1
    · exact ⟨hgrow.contains (hc.waiting hn).1, (hc.waiting hn).2⟩
  · intro n hn hk
    refine (Graph.sitesAt_create _ _ _ _ _).trans ?_
    rcases List.mem_cons.1 hn with rfl | hn
    · exact Graph.sitesAt_size c.graph
    · exact hc.unread hn hk
  · intro n hn hk hwait hbusy
    have hold := (Graph.contains_create.1 hn).resolve_right
      fun h => hwait (List.mem_cons.2 (Or.inl h))
    have hwait' : n ∉ c.worklist := fun h => hwait (List.mem_cons_of_mem _ h)
    exact (hc.finished hold hk hwait' hbusy).mono hgrow (Graph.sitesAt_create _ _ _ _ _)
  · -- One node more is live, and one node more is waiting.
    have hb := hc.balance
    change c.graph.live + 1 = ((_ :: c.worklist).length : Int) + c.pops + 1
    rw [List.length_cons]
    omega

end Underway

end Closure

end CallAtlas
