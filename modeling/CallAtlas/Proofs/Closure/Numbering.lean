import CallAtlas.Proofs.Closure.Initializers

/-!
# The Roll of Initializers

The fake world-clinit node has no code that could be read. Its sites are made up as
initializers are linked, one for each, and the closure counts them to number them. This
module says that the numbers come out right: the sites are numbered from zero without
gaps, each has one target, and no target is linked twice.

All that the fake world-clinit node has in the graph is a function of one list, the roll
of the nodes that it calls. The invariant `Listing` says so. A move leaves the roll as it
is or puts one node behind it, and that node has the highest number there is. So the roll
ascends, and in the end it is the list of callees.

The roll also tells the two ways apart in which a node can be made. A node that is not on
it was made for a call, and then the initializer of its class was looked for. This needs
no assumption on the initializers of initializers, which are not looked for.

Nothing of this depends on the answers, apart from one thing. If the unit of the fake
world-clinit node is an answer, the node is found as the node of that answer and called. A
hierarchy does not answer so, but whoever makes function objects may.

## Main definitions

* `Graph.initializerSite`, `Graph.initializerSites`: The sites that a roll gives.
* `Graph.Listing`: A roll says all about the fake world-clinit node.
* `Graph.Supplied`: Nodes that are not on the roll have their initializers.
* `Graph.Enlisted`: There is a roll of the length that was counted.

## Theorems

* `Graph.Listing.enlist`: A new node is put on the roll.
* `Closure.enlisted_found`, `Closure.enlisted_move`: Moves keep a roll.
* `Graph.Listing.targets_eq`, `Graph.Listing.sitesBetween_eq`: A site has one target, and a
  call has one site.
* `Closure.initializer_sites_numbered`: The fake world-clinit node after any run.
* `Closure.wrapper_calls_worldClinit`: An answer that calls the fake world-clinit node.
-/

namespace CallAtlas

/-! ## Rolls -/

namespace Graph

variable {init : CodeUnit → Option CodeUnit} {roll : List Node} {g : Graph} {n m : Node}

/-- The site of the fake world-clinit node for the initializer at a place of the roll. -/
def initializerSite (m : Node) (i : Nat) : CallSite :=
  { pc := i, target := m.unit.ref, kind := .static }

/-- The sites of the fake world-clinit node, numbered from zero. -/
def initializerSites (roll : List Node) : List CallSite :=
  roll.zipIdx.map fun (m, i) => initializerSite m i

/-- The fake world-clinit node calls the nodes on the roll, each from a site of its own.
    Each was made right after a node whose class it initializes. Nothing else is a site,
    a call or a target of the fake world-clinit node, and this holds at every moment of
    a run. -/
structure Listing (init : CodeUnit → Option CodeUnit) (roll : List Node) (g : Graph) : Prop where
  contains : ∀ m ∈ roll, g.contains m
  ascending : roll.Pairwise fun a b => a.id < b.id
  sites : g.sitesAt clinitId = initializerSites roll
  calls : ∀ {d}, g.Calls clinitId d ↔ ∃ m ∈ roll, m.id = d
  attributes : ∀ {site d}, g.Attributes clinitId site d ↔
    ∃ m i, roll[i]? = some m ∧ site = initializerSite m i ∧ d = m.id
  follows : ∀ m ∈ roll, ∃ k, g.contains k ∧ k.kind = .ordinary ∧ init k.unit = some m.unit ∧
    m.id = k.id + 1

/-- The nodes that are not on the roll have the initializers of their classes in the
    graph. Nodes on the roll are initializers themselves, and nobody asks for theirs. -/
def Supplied (init : CodeUnit → Option CodeUnit) (roll : List Node) (g : Graph) : Prop :=
  ∀ k i, g.contains k → k.kind = .ordinary → k ∉ roll → init k.unit = some i →
    ∃ m, g.contains m ∧ m.unit = i

theorem initializerSites_concat (roll : List Node) (m : Node) :
    initializerSites (roll ++ [m]) = initializerSites roll ++ [initializerSite m roll.length] := by
  simp [initializerSites, List.zipIdx_append]

theorem mem_initializerSites {site : CallSite} :
    site ∈ initializerSites roll ↔ ∃ m i, roll[i]? = some m ∧ site = initializerSite m i := by
  simp only [initializerSites, List.mem_map, Prod.exists, List.mem_zipIdx_iff_getElem?, eq_comm]

/-- The next number is free. -/
theorem initializerSite_not_mem (roll : List Node) (m : Node) :
    initializerSite m roll.length ∉ initializerSites roll := by
  intro hmem
  rcases mem_initializerSites.1 hmem with ⟨k, i, hi, hsite⟩
  have hpc : (roll.length : Int) = i := congrArg CallSite.pc hsite
  have hlt : i < roll.length := (List.getElem?_eq_some_iff.1 hi).1
  omega

/-- Sites are told apart by their numbers, whatever they call. -/
theorem nodup_initializerSites (roll : List Node) : (initializerSites roll).Nodup := by
  have hnumbers : (initializerSites roll).map (fun site => site.pc.toNat) =
      List.range' 0 roll.length := by
    rw [← List.zipIdx_map_snd, initializerSites, List.map_map]
    rfl
  refine List.Nodup.of_map (fun site => site.pc.toNat) ?_
  rw [hnumbers]
  exact List.nodup_range'

/-! ## Changes of the graph -/

/-- A change that does not touch the fake world-clinit node leaves the roll as it is. -/
theorem Listing.edit {g' : Graph} (h : Listing init roll g)
    (hkeeps : ∀ {k}, g.contains k → g'.contains k)
    (hsites : g'.sitesAt clinitId = g.sitesAt clinitId)
    (hcalls : ∀ {d}, g'.Calls clinitId d ↔ g.Calls clinitId d)
    (hattributes : ∀ {site d}, g'.Attributes clinitId site d ↔ g.Attributes clinitId site d) :
    Listing init roll g' := by
  refine ⟨fun m hm => hkeeps (h.contains m hm), h.ascending, hsites.trans h.sites,
    hcalls.trans h.calls, hattributes.trans h.attributes, ?_⟩
  intro m hm
  rcases h.follows m hm with ⟨k, hk, hrest⟩
  exact ⟨k, hkeeps hk, hrest⟩

theorem Listing.create (h : Listing init roll g) (u : CodeUnit) :
    Listing init roll (g.create u .everywhere .ordinary).1 :=
  h.edit (fun hk => contains_create.2 (Or.inl hk)) (sitesAt_create _ _ _ _ _) calls_create
    attributes_create

theorem Listing.recordSite (h : Listing init roll g) (hg : WellFormed g) (hn : g.contains n)
    (hne : n.id ≠ clinitId) (site : CallSite) : Listing init roll (g.recordSite n.id site) := by
  refine h.edit (keeps_recordSite g n.id site).contains_iff.2 ?_ calls_recordSite
    attributes_recordSite
  rw [sitesAt_recordSite hg.toAttributed (live_of_contains hn), if_neg fun hid => hne hid.1.symm]

/-- A call from another node leaves the roll as it is. -/
theorem Listing.called (h : Listing init roll g) (hg : WellFormed g) (hn : g.contains n)
    (hm : g.contains m) (hcaller : n.id ≠ clinitId) (site : CallSite) :
    Listing init roll (g.called n site m) := by
  refine h.edit contains_called.2 ?_ ?_ ?_
  · rw [sitesAt_called hg hn hm, if_neg fun hid => hcaller hid.1.symm]
  · exact (calls_called hn).trans (or_iff_left fun hid => hcaller hid.1.symm)
  · exact (attributes_called hn).trans (or_iff_left fun hid => hcaller hid.1.symm)

/-- A node with a higher number than all others is put on the roll when it is called
    with the next number. The number of its site is the length of the roll, so sites are
    counted along with the roll. -/
theorem Listing.enlist (h : Listing init roll g) (hg : WellFormed g) (hn : g.contains n)
    (hclinit : n.id = clinitId) (hm : g.contains m)
    (hlast : ∀ k ∈ roll, k.id < m.id)
    (hfollows : ∃ k, g.contains k ∧ k.kind = .ordinary ∧ init k.unit = some m.unit ∧
      m.id = k.id + 1) :
    Listing init (roll ++ [m]) (g.called n (initializerSite m roll.length) m) := by
  have hmem : ∀ {k}, k ∈ roll ++ [m] → k ∈ roll ∨ k = m := by simp
  refine ⟨?_, ?_, ?_, ?_, ?_, ?_⟩
  · intro k hk
    rcases hmem hk with hk | rfl
    · exact contains_called.2 (h.contains k hk)
    · exact contains_called.2 hm
  · refine List.pairwise_append.2 ⟨h.ascending, List.pairwise_singleton _ _, ?_⟩
    intro a ha b hb
    rw [List.mem_singleton.1 hb]
    exact hlast a ha
  · -- The site is new, so it is recorded behind the others.
    rw [sitesAt_called hg hn hm, hclinit, h.sites, initializerSites_concat,
      if_pos ⟨rfl, initializerSite_not_mem roll m⟩]
  · intro d
    rw [calls_called hn, h.calls, hclinit]
    simp only [List.mem_append, List.mem_singleton, or_and_right, exists_or, exists_eq_left,
      true_and, @eq_comm _ d]
  · intro s d
    rw [attributes_called hn, h.attributes, hclinit]
    constructor
    · rintro (⟨k, i, hi, hs, hd⟩ | ⟨_, rfl, rfl⟩)
      · exact ⟨k, i, List.getElem?_append_left (List.getElem?_eq_some_iff.1 hi).1 ▸ hi, hs, hd⟩
      · exact ⟨m, roll.length, List.getElem?_concat_length, rfl, rfl⟩
    · rintro ⟨k, i, hi, hs, hd⟩
      rw [List.getElem?_append] at hi
      split at hi
      · exact Or.inl ⟨k, i, hi, hs, hd⟩
      · next hge =>
        -- Behind the old roll there is one place.
        have hi' := List.getElem?_eq_some_iff.1 hi
        rcases hi' with ⟨hlt, hk⟩
        rw [List.length_singleton] at hlt
        have hplace : i = roll.length := by omega
        subst hplace
        simp only [Nat.sub_self, List.getElem_cons_zero] at hk
        subst hk
        exact Or.inr ⟨rfl, hs, hd⟩
  · intro k hk
    have hcause : ∃ j, g.contains j ∧ j.kind = .ordinary ∧ init j.unit = some k.unit ∧
        k.id = j.id + 1 := by
      rcases hmem hk with hk | rfl
      · exact h.follows k hk
      · exact hfollows
    rcases hcause with ⟨j, hj, hrest⟩
    exact ⟨j, contains_called.2 hj, hrest⟩

/-- Nodes stay supplied if the new ones are. -/
theorem Supplied.extend {g' : Graph} {roll' : List Node} (h : Supplied init roll g)
    (hkeeps : ∀ {k}, g.contains k → g'.contains k) (hroll : roll ⊆ roll')
    (hnew : ∀ {k i}, g'.contains k → ¬g.contains k → k ∉ roll' → init k.unit = some i →
      ∃ m, g'.contains m ∧ m.unit = i) : Supplied init roll' g' := by
  intro k i hk hord hnot hi
  by_cases hold : g.contains k
  · rcases h k i hold hord (fun hin => hnot (hroll hin)) hi with ⟨m, hm, hunit⟩
    exact ⟨m, hkeeps hm, hunit⟩
  · exact hnew hk hold hnot hi

/-- With a new node, the nodes stay supplied if the initializer of its class is there. -/
theorem Supplied.create (h : Supplied init roll g) {u : CodeUnit}
    (hnew : ∀ i, init u = some i → ∃ m, (g.create u .everywhere .ordinary).1.contains m ∧ m.unit = i) :
    Supplied init roll (g.create u .everywhere .ordinary).1 := by
  refine h.extend (fun hk => contains_create.2 (Or.inl hk)) (List.Subset.refl roll) ?_
  intro k i hk hnot _ hi
  rw [(contains_create.1 hk).resolve_left hnot] at hi
  exact hnew i hi

/-- There is a roll, and it is as long as was counted. -/
def Enlisted (init : CodeUnit → Option CodeUnit) (g : Graph) (count : Nat) : Prop :=
  ∃ roll, Listing init roll g ∧ Supplied init roll g ∧ count = roll.length

/-- A site that is recorded elsewhere changes neither the roll nor the count. -/
theorem Enlisted.recordSite {count : Nat} (h : Enlisted init g count) (hg : WellFormed g)
    (hn : g.contains n) (hne : n.id ≠ clinitId) (site : CallSite) :
    Enlisted init (g.recordSite n.id site) count := by
  rcases h with ⟨roll, hlist, hsupplied, hcount⟩
  have hsame : ∀ {k}, (g.recordSite n.id site).contains k ↔ g.contains k :=
    (keeps_recordSite g n.id site).contains_iff
  refine ⟨roll, hlist.recordSite hg hn hne site, ?_, hcount⟩
  exact hsupplied.extend hsame.2 (List.Subset.refl roll) fun hk hnot => absurd (hsame.1 hk) hnot

theorem Enlisted.called {count : Nat} (h : Enlisted init g count) (hg : WellFormed g)
    (hn : g.contains n) (hm : g.contains m) (hcaller : n.id ≠ clinitId) (site : CallSite) :
    Enlisted init (g.called n site m) count := by
  rcases h with ⟨roll, hlist, hsupplied, hcount⟩
  refine ⟨roll, hlist.called hg hn hm hcaller site, ?_, hcount⟩
  exact hsupplied.extend contains_called.2 (List.Subset.refl roll) fun hk hnot =>
    absurd (contains_called.1 hk) hnot

end Graph

/-! ## Moves -/

namespace Closure

open CallAtlas.Graph (clinitId Listing Supplied Enlisted initializerSite initializerSites)

variable {σ : Type} {init : CodeUnit → Option CodeUnit} {h : Hierarchy σ} {n m : Node}
  {c c' : Closure Unit} {roll : List Node}

/-- Linking the initializer of the node that was made last puts it on the roll. It is
    made right after that node, which is why their numbers follow each other. -/
theorem listing_linkInitializer (hc : Orderly h (some n) c) {k : Node} {i : CodeUnit}
    (hk : c.graph.contains k) (hord : k.kind = .ordinary) (hlast : k.id + 1 = c.graph.slots.size)
    (hi : init k.unit = some i) (hmentions : h.Mentions i)
    (hnew : c.graph.lookup i .everywhere = none) (hlist : Listing init roll c.graph)
    (hcount : c.initializers = roll.length) :
    Listing init (roll ++ [(c.newNode i).1]) (c.linkInitializer i).graph := by
  have hwf := (hc.newNode hnew hmentions).orderly.wellFormed
  have hmade : (c.newNode i).2.graph.contains (c.newNode i).1 :=
    Graph.contains_create.2 (Or.inr rfl)
  have hclinit : (c.newNode i).2.graph.contains c.clinitNode := Graph.contains_iff.2 hwf.clinit
  have hbefore : ∀ j ∈ roll, j.id < (c.newNode i).1.id := fun j hj =>
    (Graph.id_bounds (hlist.contains j hj)).2
  rw [linkInitializer_of_none hnew, hcount]
  exact (hlist.create i).enlist hwf hclinit rfl hmade hbefore
    ⟨k, Graph.contains_create.2 (Or.inl hk), hord, hi, hlast.symm⟩

section Pure

-- The hierarchy names the same initializer each time.
variable (hinit : ∀ u w, ((h.initializer u).run w).1 = init u)
include hinit

/-- A node is found with its initializer. There are four cases: the node was there, it
    has no initializer, its initializer was there, or both are made. Only in the last
    one is the roll longer than before. -/
theorem enlisted_found (hc : Orderly h (some n) c)
    (henlisted : Enlisted init c.graph c.initializers) (hfound : Found h c m c') :
    Enlisted init c'.graph c'.initializers := by
  rcases henlisted with ⟨roll, hlist, hsupplied, hcount⟩
  cases hfound with
  | @known u m hl hu => exact ⟨roll, hlist, hsupplied, hcount⟩
  | @alone u w hl hu hi =>
      rw [hinit] at hi
      refine ⟨roll, hlist.create u, hsupplied.create fun i hui => ?_, hcount⟩
      exact absurd (hi.symm.trans hui) (by simp)
  | @initialized u i w hl hu hi =>
      have hmentions : h.Mentions i := .initializer w hi
      rw [hinit] at hi
      have hc₁ := (hc.newNode hl hu).orderly
      have hlist₁ : Listing init roll (c.newNode u).2.graph := hlist.create u
      have hmade : (c.newNode u).2.graph.contains (c.newNode u).1 :=
        Graph.contains_create.2 (Or.inr rfl)
      cases hlookup : (c.newNode u).2.graph.lookup i .everywhere with
      | some j =>
          -- The initializer was met before, so nothing is linked.
          rcases hc₁.wellFormed.lookup_eq_some_iff.1 hlookup with ⟨hj, hunit, _⟩
          rw [linkInitializer_of_some hlookup]
          refine ⟨roll, hlist₁, hsupplied.create fun i' hui => ?_, hcount⟩
          exact ⟨j, Graph.contains_iff.2 hj, hunit.trans (Option.some.inj (hi.symm.trans hui))⟩
      | none =>
          have hlast : (c.newNode u).1.id + 1 = (c.newNode u).2.graph.slots.size := by
            change (c.graph.slots.size : Int) + 1 = (c.graph.slots.push _).size
            rw [Array.size_push]
            rfl
          have hlist₂ := listing_linkInitializer hc₁ hmade rfl hlast hi hmentions hlookup hlist₁
            hcount
          have hlinked := linkInitializer_of_none hlookup
          refine ⟨_, hlist₂, ?_, ?_⟩
          · have hkeeps : ∀ {k}, (c.newNode u).2.graph.contains k →
                ((c.newNode u).2.linkInitializer i).graph.contains k := by
              rw [hlinked]
              exact fun hk => Graph.contains_called.2 (Graph.contains_create.2 (Or.inl hk))
            refine hsupplied.extend (fun hk => hkeeps (Graph.contains_create.2 (Or.inl hk)))
              (List.subset_append_left _ _) ?_
            intro k i' hk hnot hoff hki
            -- Of the two new nodes one is on the roll and the other has it for an initializer.
            have hmem := List.mem_append_right roll
              (List.mem_singleton_self ((c.newNode u).2.newNode i).1)
            rw [hlinked] at hk
            rcases Graph.contains_create.1 (Graph.contains_called.1 hk) with hk | rfl
            · rw [(Graph.contains_create.1 hk).resolve_left hnot] at hki
              exact ⟨_, hlist₂.contains _ hmem, Option.some.inj (hi.symm.trans hki)⟩
            · exact absurd hmem hoff
          · rw [hlinked, List.length_append, List.length_singleton, ← hcount]
            rfl

/-- A move keeps a roll. What is recorded or called in a move belongs to the node being
    read, so the roll only changes where a node is found. -/
theorem enlisted_move (hc : Orderly h (some n) c) (hmove : Move h n c c')
    (henlisted : Enlisted init c.graph c.initializers) :
    Enlisted init c'.graph c'.initializers := by
  cases hmove with
  | record site => exact henlisted.recordSite hc.wellFormed (hc.busy_node rfl).1 hc.busy_id site
  | call site hfound =>
      rcases hc.found hfound with ⟨hproc, hm⟩
      exact (enlisted_found hinit hc henlisted hfound).called hproc.orderly.wellFormed
        (hproc.orderly.busy_node rfl).1 hm hc.busy_id site

end Pure

/-! ## Runs -/

/-- At the start the roll is empty. -/
theorem enlisted_start (world : σ) (serial : Nat) (entries : List CodeUnit) :
    Enlisted init (start world serial entries).graph (start world serial entries).initializers := by
  let root : Node := ⟨serial, Graph.rootId, .fakeRoot, .everywhere, .fakeRoot⟩
  have hroot : (Graph.fresh serial).contains root := Graph.contains_fresh.2 (Or.inl rfl)
  -- The fake world-clinit node is not the root, where the entrypoints are recorded.
  have hsites : (start world serial entries).graph.sitesAt clinitId = [] := by
    have hne : clinitId ≠ Graph.rootId := by decide
    rw [graph_start, Graph.sitesAt_recordSites_of_ne hne _
      (Graph.obtainable_fresh serial).wellFormed (Graph.live_of_contains hroot),
      Graph.sitesAt_fresh]
  have hnone : ∀ {site d}, ¬(start world serial entries).graph.Attributes clinitId site d := by
    intro site d
    rw [graph_start, Graph.attributes_recordSites]
    exact Graph.not_attributes_fresh
  refine ⟨[], ⟨by simp, .nil, hsites, ?_, ?_, by simp⟩, ?_, rfl⟩
  · exact iff_of_false not_calls_start (by simp)
  · exact iff_of_false hnone (by simp)
  · intro k i hk hord
    rw [graph_start, (Graph.keeps_recordSites Graph.rootId _ _).contains_iff] at hk
    exact absurd hord (not_ordinary_fresh hk)

end Closure

/-! ## What a roll says of the graph -/

namespace Graph

variable {init : CodeUnit → Option CodeUnit} {roll : List Node} {g : Graph} {n m : Node}

theorem Listing.callSites_eq (h : Listing init roll g) (hn : g.contains n)
    (hclinit : n.id = clinitId) : g.callSites n = initializerSites roll := by
  rw [Graph.callSites_eq hn, hclinit]
  exact h.sites

section Listed

variable (h : Listing init roll g) (hg : WellFormed g) (hn : g.contains n)
  (hclinit : n.id = clinitId)
include h hg hn hclinit

/-- The roll is the list of callees. -/
theorem Listing.succs_eq : g.succs n = roll := by
  refine eq_of_ascending (hg.succs_ascending n) h.ascending fun m => ?_
  rw [hg.mem_succs, hclinit, h.calls]
  constructor
  · rintro ⟨_, hm, k, hk, hid⟩
    rw [← eq_of_contains (h.contains k hk) hm hid]
    exact hk
  · intro hm
    exact ⟨hn, h.contains m hm, m, hm, rfl⟩

/-- A target of a site is the node that the site was made for. -/
theorem Listing.mem_targets {site : CallSite} :
    m ∈ g.targets n site ↔ ∃ i, roll[i]? = some m ∧ site = initializerSite m i := by
  rw [hg.mem_targets, hclinit, h.attributes]
  constructor
  · rintro ⟨_, hm, k, i, hi, hsite, hid⟩
    obtain rfl : k = m := eq_of_contains (h.contains k (List.mem_of_getElem? hi)) hm hid.symm
    exact ⟨i, hi, hsite⟩
  · rintro ⟨i, hi, hsite⟩
    exact ⟨hn, h.contains m (List.mem_of_getElem? hi), m, i, hi, hsite, rfl⟩

/-- A site has one target. Sites with the same number are the same, so no other node is
    a target of it. -/
theorem Listing.targets_eq {i : Nat} (hi : roll[i]? = some m) :
    g.targets n (initializerSite m i) = [m] := by
  refine eq_of_ascending (hg.targets_ascending n _) (List.pairwise_singleton _ m) fun k => ?_
  rw [h.mem_targets hg hn hclinit, List.mem_singleton]
  constructor
  · rintro ⟨j, hj, hsite⟩
    obtain rfl : i = j := Int.ofNat.inj (congrArg CallSite.pc hsite)
    exact Option.some.inj (hj.symm.trans hi)
  · rintro rfl
    exact ⟨i, hi, rfl⟩

/-- A call has one site. -/
theorem Listing.sitesBetween_eq {i : Nat} (hi : roll[i]? = some m) :
    g.sitesBetween n m = [initializerSite m i] := by
  rw [hg.sitesBetween_eq, h.callSites_eq hn hclinit]
  refine List.perm_singleton.1 ((List.perm_ext_iff_of_nodup
    ((nodup_initializerSites roll).filter _) (List.nodup_singleton _)).2 fun site => ?_)
  rw [List.mem_filter, decide_eq_true_iff, h.mem_targets hg hn hclinit, List.mem_singleton]
  constructor
  · -- The node has one place on the roll.
    rintro ⟨_, j, hj, rfl⟩
    have hlt := (List.getElem?_eq_some_iff.1 hi).1
    rw [(List.getElem?_inj hlt (nodup_of_ascending h.ascending)).1 (hi.trans hj.symm)]
  · rintro rfl
    exact ⟨mem_initializerSites.2 ⟨m, i, hi, rfl⟩, i, hi, rfl⟩

end Listed

end Graph

namespace Closure

open CallAtlas.Graph (clinitId Enlisted initializerSite initializerSites)

variable {σ : Type} {init : CodeUnit → Option CodeUnit} {h : Hierarchy σ}

/-- The fake world-clinit node after any run, cut short or not. Its sites are numbered from zero
    in the order of recording, each with one target, and they are all it has.

    The roll is the list of callees itself, so the statement needs no other list. It is assumed
    that the hierarchy names the same initializer each time, and nothing else of its answers.
    That nothing calls the node is the one part that can fail, and only through an answer that
    is its unit. -/
theorem initializer_sites_numbered (hinit : ∀ u w, ((h.initializer u).run w).1 = init u)
    (world : σ) (serial : Nat) (only : Bool) (entries : List CodeUnit) (life : Lifetime) :
    let c := (build h world serial only entries life).1
    let g := c.graph
    ∃ clinit, CallGraph.fakeWorldClinit g = some clinit ∧ clinit.kind = .fakeWorldClinit ∧
      -- Site `i` is static, has number `i` and declares the unit of callee `i`.
      g.callSites clinit = initializerSites (g.succs clinit) ∧
      c.initializers = (g.succs clinit).length ∧
      -- It calls that callee and no other, and no other site does.
      (∀ i m, (g.succs clinit)[i]? = some m →
        g.targets clinit (initializerSite m i) = [m] ∧
        g.sitesBetween clinit m = [initializerSite m i]) ∧
      -- The callees ascend, and each was made right after a node whose class it initializes.
      (g.succs clinit).Pairwise (fun a b => a.id < b.id) ∧
      (∀ m ∈ g.succs clinit, ∃ k, g.contains k ∧ k.kind = .ordinary ∧
        init k.unit = some m.unit ∧ m.id = k.id + 1) ∧
      -- Nothing calls the fake world-clinit node, unless its unit is an answer.
      (¬h.Mentions .fakeWorldClinit → g.preds clinit = []) ∧
      -- A node that was made for a call has the initializer of its class in the graph.
      ∀ k i, g.contains k → k.kind = .ordinary → ¬g.hasEdge clinit k → init k.unit = some i →
        ∃ m, g.lookup i .everywhere = some m := by
  intro c g
  have hstart := orderly_start h world serial entries
  have hcached := cached_start h world serial entries
  rcases exists_run_eq_advance h only (h.bound + 1) life (start world serial entries) with ⟨j, hj⟩
  have hc : c = advance h only j (start world serial entries) := hj
  have horder : Orderly h none c.bare := by
    rw [hc]
    exact (hstart.advance hcached only j).1
  have henlisted : Enlisted init c.graph c.initializers := by
    rw [hc]
    exact hstart.advance_keeps (enlisted_move hinit) hcached
      (enlisted_start world serial entries) only j
  have hcalls : CallsAnswers h g := by
    change CallsAnswers h c.graph
    rw [hc]
    exact callsAnswers_advance h only world serial entries j
  have hwf : g.WellFormed := horder.wellFormed
  have hclinit : g.contains c.clinitNode := Graph.contains_iff.2 hwf.clinit
  rcases henlisted with ⟨roll, hlist, hsupplied, hcount⟩
  have hsuccs : g.succs c.clinitNode = roll := hlist.succs_eq hwf hclinit rfl
  refine ⟨c.clinitNode, hwf.clinit, rfl, ?_⟩
  rw [hsuccs]
  refine ⟨hlist.callSites_eq hclinit rfl, hcount, fun i m hi =>
    ⟨hlist.targets_eq hwf hclinit rfl hi, hlist.sitesBetween_eq hwf hclinit rfl hi⟩,
    hlist.ascending, hlist.follows, hcalls.preds_eq_nil (m := c.clinitNode) hwf, ?_⟩
  intro k i hk hord hnot hi
  have hoff : k ∉ roll := fun hin => hnot
    (Graph.hasEdge_iff.2 ⟨hclinit, hk, hlist.calls.2 ⟨k, hin, rfl⟩⟩)
  rcases hsupplied k i hk hord hoff hi with ⟨m, hm, rfl⟩
  exact ⟨m, hwf.lookup_of_everywhere horder.everywhere hm⟩

/-! ## Two classes -/

/-- Two classes with a method and an initializer each. Initializers belong to a third
    class, which has an initializer that is not looked for. -/
def cabinet : Answers where
  single r :=
    if r.name = "open" ∧ (r.owner = "Drawer" ∨ r.owner = "Shelf") then some (.named r) else none
  overrides _ := []
  isAbstract _ := false
  loader _ := .application
  initializer u :=
    if u.ref.owner = "Drawer" then some (.named ⟨"Static", "drawer", "()"⟩)
    else if u.ref.owner = "Shelf" then some (.named ⟨"Static", "shelf", "()"⟩)
    else if u.ref.owner = "Static" then some (.named ⟨"Static", "init", "()"⟩)
    else none
  callSites _ := []
  wrapper _ _ := none

/-- Neither class and no initializer here is the unit of a synthetic node. -/
theorem cabinet_real : ¬(cabinet.hierarchy 4).Mentions .fakeWorldClinit := by
  intro hmentions
  cases (cabinet.givenBy_hierarchy 4).mentions hmentions with
  | single hu =>
      simp only [cabinet, Option.ite_none_right_eq_some, Option.some.injEq] at hu
      -- What a reference finds has its name, and the synthetic node is named otherwise.
      rcases hu with ⟨⟨hname, _⟩, hu⟩
      obtain rfl := CodeUnit.named.inj hu
      exact absurd hname (by decide)
  | overrides hu => exact absurd hu List.not_mem_nil
  | initializer hu =>
      simp only [cabinet] at hu
      split_ifs at hu <;> exact absurd (Option.some.inj hu) (by decide)
  | wrapper hu => simp [cabinet] at hu

/-- Two initializers are linked, by sites with the numbers zero and one. -/
theorem initializer_sites_numbered_cabinet :
    let g := (build (cabinet.hierarchy 4) () 0 false
      [.named ⟨"Drawer", "open", "()"⟩, .named ⟨"Shelf", "open", "()"⟩] .unbounded).1.graph
    let clinit : Node := ⟨0, 1, .fakeWorldClinit, .everywhere, .fakeWorldClinit⟩
    let drawer : Node := ⟨0, 3, .named ⟨"Static", "drawer", "()"⟩, .everywhere, .ordinary⟩
    let shelf : Node := ⟨0, 5, .named ⟨"Static", "shelf", "()"⟩, .everywhere, .ordinary⟩
    ¬(cabinet.hierarchy 4).Mentions .fakeWorldClinit ∧ g.succs clinit = [drawer, shelf] ∧
      g.callSites clinit = [⟨0, ⟨"Static", "drawer", "()"⟩, .static⟩,
        ⟨1, ⟨"Static", "shelf", "()"⟩, .static⟩] ∧
      g.sitesBetween clinit shelf = [⟨1, ⟨"Static", "shelf", "()"⟩, .static⟩] ∧
      g.preds clinit = [] ∧
      (g.lookup (.named ⟨"Static", "init", "()"⟩) .everywhere).isNone := by
  intro g clinit drawer shelf
  have hfake : CallGraph.fakeWorldClinit g = some clinit := by decide +kernel
  have hsuccs : g.succs clinit = [drawer, shelf] := by decide +kernel
  rcases initializer_sites_numbered (cabinet.givenBy_hierarchy 4).initializer () 0 false
    [.named ⟨"Drawer", "open", "()"⟩, .named ⟨"Shelf", "open", "()"⟩] .unbounded with
    ⟨n, hn, _, hsites, _, hone, _, _, hpreds, _⟩
  -- The numbering is that of the theorem, for the two initializers that were found.
  obtain rfl : clinit = n := Option.some.inj (hfake.symm.trans hn)
  have hsites : g.callSites clinit = initializerSites (g.succs clinit) := hsites
  rw [hsuccs] at hsites
  have hshelf : (g.succs clinit)[1]? = some shelf := by
    rw [hsuccs]
    rfl
  exact ⟨cabinet_real, hsuccs, hsites, (hone 1 shelf hshelf).2, hpreds cabinet_real,
    by decide +kernel⟩

/-! ## A function object that is a synthetic node -/

/-- A method that makes a function object, which is taken to be a given unit. -/
def relay (object : CodeUnit) : Answers where
  single r := if r = ⟨"app", "main", "()"⟩ then some (.named r) else none
  overrides _ := []
  isAbstract _ := false
  loader _ := .application
  initializer _ := none
  callSites u := if u.ref.name = "main" then [⟨0, ⟨"app", "task", "()"⟩, .dynamic⟩] else []
  wrapper _ _ := some object

/-- Whatever the function object is, the other answers are never synthetic. -/
theorem relay_real (object : CodeUnit) {r : MethodRef} {v u : CodeUnit}
    (hu : (relay object).single r = some u ∨ u ∈ (relay object).overrides r ∨
      (relay object).initializer v = some u) : u ≠ .fakeRoot ∧ u ≠ .fakeWorldClinit := by
  rcases hu with hu | hu | hu
  · simp only [relay, Option.ite_none_right_eq_some, Option.some.injEq] at hu
    rcases hu with ⟨rfl, rfl⟩
    decide
  · exact absurd hu List.not_mem_nil
  · exact absurd hu (by simp [relay])

/-- The fake world-clinit node is called, although what calls and classes are answered
    with is never synthetic. The one who makes function objects is free to answer with
    any unit, and the closure calls what it is given. -/
theorem wrapper_calls_worldClinit :
    let a := relay .fakeWorldClinit
    let g := (build (a.hierarchy 2) () 0 false [.named ⟨"app", "main", "()"⟩] .unbounded).1.graph
    let clinit : Node := ⟨0, 1, .fakeWorldClinit, .everywhere, .fakeWorldClinit⟩
    let main : Node := ⟨0, 2, .named ⟨"app", "main", "()"⟩, .everywhere, .ordinary⟩
    (∀ r v u, a.single r = some u ∨ u ∈ a.overrides r ∨ a.initializer v = some u →
      u ≠ .fakeRoot ∧ u ≠ .fakeWorldClinit) ∧
    CallGraph.fakeWorldClinit g = some clinit ∧ g.preds clinit = [main] :=
  ⟨fun _ _ _ => relay_real .fakeWorldClinit, by decide +kernel, by decide +kernel⟩

end Closure

end CallAtlas
