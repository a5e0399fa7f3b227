import CallAtlas.Proofs.Closure.Invariant

/-!
# Reading One Node

The closure reads a node site by site, and a site candidate by candidate. Each of the
functions that it is made of has one lemma here, from the inside out: finding or
making the node of a candidate, linking it, linking all candidates of a site,
recording and linking a site, reading all sites. Each keeps the invariant, loses
nothing, and adds what it is there for; the lemmas on lists go by induction along
the list with the lemma on one element.

The hierarchy is asked twice at most, and the caches answer otherwise. Since a
hierarchy given by `Answers` repeats itself, what a cache holds is what the hierarchy
would have said.

## Main definitions

* `Closure.Advances`: Part of the reading of a node.

## Theorems

* `Closure.ask_eq`: An answer depends on the question alone.
* `Closure.Reading.nodeFor`: The node of a unit, with the initializer of its class.
* `Closure.Reading.link`: A candidate is linked.
* `Closure.visitSite_of_answer`: What a visit of a site does with the answer.
* `Closure.Reading.visitSite`: A site is recorded and all its candidates linked.
* `Closure.Reading.step`: A node is finished.
-/

namespace CallAtlas

namespace Closure

open CallAtlas.Graph (rootId clinitId)

variable {σ : Type} {a : Answers} {only : Bool} {entries : List CodeUnit} {h : Hierarchy σ}

/-! ## Changes beside the graph -/

/-- An answer depends on the question alone. The question is noted and the state of the
    hierarchy may change, but neither is looked at again. -/
theorem ask_eq {α : Type} (c : Closure σ) (q : Question) {answer : StateM σ α} {v : α}
    (hv : ∀ w, (answer.run w).1 = v) :
    ∃ w, c.ask q answer = (v, { c with world := w, asked := c.asked ++ [q] }) := by
  refine ⟨(answer.run c.world).2, ?_⟩
  rw [← hv c.world]
  rfl

/-- What is said of a closure underway is about its graph, its worklist, the number of
    nodes taken off it, and its caches. The state of the hierarchy and the notes of what
    was asked may change freely. -/
theorem Underway.congr {busy : Option Node} {c c' : Closure σ}
    (hc : Underway a only entries busy c) (hgraph : c'.graph = c.graph)
    (hworklist : c'.worklist = c.worklist) (hpops : c'.pops = c.pops)
    (hcandidates : ∀ {t k us}, c'.candidates.find? (t, k) = some us → us = a.found t k)
    (hwrappers : ∀ {i site o}, c'.wrappers.find? (i, site) = some o →
      ∃ n, c.graph.contains n ∧ n.id = i ∧ o = a.wrapper n.unit site) :
    Underway a only entries busy c' := by
  refine ⟨?_, hcandidates, ?_, ?_, ?_, ?_, ?_, ?_, ?_, ?_⟩
  · rw [hgraph]; exact hc.toSound
  · rw [hgraph]; exact hwrappers
  · rw [hgraph]; exact hc.root_sites
  · rw [hgraph]; exact hc.busy_node
  · rw [hworklist]; exact hc.worklist_nodup
  · rw [hgraph, hworklist]; exact hc.waiting
  · rw [hgraph, hworklist]; exact hc.unread
  · rw [hgraph, hworklist]; exact hc.finished
  · rw [hgraph, hworklist, hpops]; exact hc.balance

theorem Reading.congr {busy : Option Node} {c c' : Closure σ}
    (hc : Reading a only entries busy c) (hgraph : c'.graph = c.graph)
    (hworklist : c'.worklist = c.worklist) (hpops : c'.pops = c.pops)
    (hcandidates : ∀ {t k us}, c'.candidates.find? (t, k) = some us → us = a.found t k)
    (hwrappers : ∀ {i site o}, c'.wrappers.find? (i, site) = some o →
      ∃ n, c.graph.contains n ∧ n.id = i ∧ o = a.wrapper n.unit site) :
    Reading a only entries busy c' :=
  ⟨hc.toUnderway.congr hgraph hworklist hpops hcandidates hwrappers,
    by rw [hgraph]; exact hc.initialized⟩

/-! ## The node of a unit -/

/-- The fake world-clinit node, as the graph of a closure has it. -/
def clinitNode (c : Closure σ) : Node :=
  ⟨c.graph.serial, clinitId, .fakeWorldClinit, .everywhere, .fakeWorldClinit⟩

/-- An initializer that has a node is left alone. It was called when it got its node. -/
theorem linkInitializer_of_some {c : Closure σ} {i : CodeUnit} {m : Node}
    (hl : c.graph.lookup i .everywhere = some m) : c.linkInitializer i = c := by
  rw [linkInitializer, hl]
  rfl

/-- An initializer without a node gets one, and a call from the fake world-clinit node.
    The sites of these calls are numbered by a counter of their own. -/
theorem linkInitializer_of_none {c : Closure σ} {i : CodeUnit}
    (hl : c.graph.lookup i .everywhere = none) :
    c.linkInitializer i = { (c.newNode i).2 with
      graph := (c.newNode i).2.graph.called c.clinitNode
        { pc := c.initializers, target := i.ref, kind := .static } (c.newNode i).1
      initializers := c.initializers + 1 } := by
  rw [Graph.called_of_ne (by simp [clinitNode, clinitId, rootId]), linkInitializer, hl]
  rfl

/-- The initializer of a class gets a node and a call from the fake world-clinit
    node, unless it has a node. -/
theorem Underway.linkInitializer {busy : Option Node} {c : Closure σ}
    (hc : Underway a only entries busy c) {k : Node} {i : CodeUnit} (hk : c.graph.contains k)
    (hord : k.kind = .ordinary) (hi : a.initializer k.unit = some i) :
    Underway a only entries busy (c.linkInitializer i) ∧
      Grows c.graph (c.linkInitializer i).graph ∧
      (∀ j ≠ clinitId, (c.linkInitializer i).graph.sitesAt j = c.graph.sitesAt j) ∧
      (c.linkInitializer i).pops = c.pops ∧
      (∃ m, (c.linkInitializer i).graph.contains m ∧ m.unit = i) ∧
      ∀ m, (c.linkInitializer i).graph.contains m → c.graph.contains m ∨ m.unit = i := by
  cases hl : c.graph.lookup i .everywhere with
  | some m =>
      rcases hc.wellFormed.lookup_eq_some_iff.1 hl with ⟨hm, hunit, _⟩
      rw [linkInitializer_of_some hl]
      exact ⟨hc, Grows.refl _, fun _ _ => rfl, rfl, ⟨m, Graph.contains_iff.2 hm, hunit⟩,
        fun m hm => Or.inl hm⟩
  | none =>
      rw [linkInitializer_of_none hl]
      have hc₁ := hc.newNode hl (.initializer hi)
        fun units hunits => hunits.initializer _ (hc.needed hk hord units hunits) i hi
      have hgrow := grows_create c.graph i
      have hm : (c.newNode i).2.graph.contains (c.newNode i).1 :=
        Graph.contains_create.2 (Or.inr rfl)
      have hroot : (c.newNode i).2.graph.contains c.clinitNode :=
        Graph.contains_iff.2 hc₁.wellFormed.clinit
      -- The new node is called from the fake world-clinit node right away.
      have hcall := hc₁.call { pc := c.initializers, target := i.ref, kind := .static } hroot
        (Or.inr rfl) hm ⟨rfl, rfl, k, hgrow.contains hk, hord, hi⟩
      refine ⟨hcall.congr rfl rfl rfl hcall.candidates_eq hcall.wrappers_eq,
        hgrow.trans (grows_called hroot _ _), ?_, rfl, ⟨_, Graph.contains_called.2 hm, rfl⟩, ?_⟩
      · intro j hj
        refine (Graph.sitesAt_called hc₁.wellFormed hroot hm j).trans ?_
        rw [if_neg (fun h => hj h.1)]
        exact Graph.sitesAt_create _ _ _ _ _
      · intro m' hm'
        rcases Graph.contains_create.1 (Graph.contains_called.1 hm') with hm' | rfl
        · exact Or.inl hm'
        · exact Or.inr rfl

/-- Part of the reading of a node: the invariant holds again, nothing is lost, and no
    site of the node was recorded. -/
structure Advances (a : Answers) (only : Bool) (entries : List CodeUnit) (n : Node)
    (c c' : Closure σ) : Prop where
  reading : Reading a only entries (some n) c'
  grows : Grows c.graph c'.graph
  sites : c'.graph.sitesAt n.id = c.graph.sitesAt n.id
  pops : c'.pops = c.pops

theorem Advances.trans {n : Node} {c₁ c₂ c₃ : Closure σ} (h₁ : Advances a only entries n c₁ c₂)
    (h₂ : Advances a only entries n c₂ c₃) : Advances a only entries n c₁ c₃ :=
  ⟨h₂.reading, h₁.grows.trans h₂.grows, h₂.sites.trans h₁.sites, h₂.pops.trans h₁.pops⟩

/-- The number of the node being read is not that of the fake world-clinit node. -/
theorem Underway.busy_id {n : Node} {c : Closure σ} (hc : Underway a only entries (some n) c) :
    n.id ≠ clinitId := by
  rcases hc.busy_node rfl with ⟨hn, hk⟩
  exact fun h => hk ((hc.wellFormed.kind_eq_fakeWorldClinit_iff hn).2 h)

/-- A unit that was not met before gets a node, and so does the initializer of its
    class. It is here that an initializer of an initializer would be missed: only the
    unit itself is asked about. With admissible answers there is nothing to miss. -/
theorem Reading.nodeFor_of_none (ha : a.GivenBy h) (hok : a.Admissible h.bound) {n : Node}
    {c : Closure σ} (hc : Reading a only entries (some n) c) {u : CodeUnit}
    (hl : c.graph.lookup u .everywhere = none) (hmem : a.Mentions u)
    (hneed : ∀ units, a.Closed only entries units → u ∈ units) :
    Advances a only entries n c (c.nodeFor h u).2 ∧
      (c.nodeFor h u).2.graph.contains (c.nodeFor h u).1 ∧ (c.nodeFor h u).1.unit = u := by
  have hn := hc.busy_id
  have hc₁ := hc.toUnderway.newNode hl hmem hneed
  have hgrow := grows_create c.graph u
  have hm : (c.newNode u).2.graph.contains (c.newNode u).1 := Graph.contains_create.2 (Or.inr rfl)
  rcases ask_eq (c.newNode u).2 (.initializer u) (ha.initializer u) with ⟨w, hask⟩
  have hc₂ : Underway a only entries (some n)
      { (c.newNode u).2 with world := w, asked := (c.newNode u).2.asked ++ [.initializer u] } :=
    hc₁.congr rfl rfl rfl hc₁.candidates_eq hc₁.wrappers_eq
  -- A node of the unit is new, and the nodes there were have their initializers.
  have hold : ∀ k, (c.newNode u).2.graph.contains k → k.kind = .ordinary →
      k.unit = u ∨ ∀ v, a.initializer k.unit = some v → ∃ m, c.graph.contains m ∧ m.unit = v := by
    intro k hk hord
    rcases Graph.contains_create.1 hk with hk | rfl
    · exact Or.inr (hc.initialized hk hord)
    · exact Or.inl rfl
  unfold nodeFor
  rw [hl]
  simp only [hask]
  cases hi : a.initializer u with
  | none =>
      refine ⟨⟨⟨hc₂, ?_⟩, hgrow, Graph.sitesAt_create _ _ _ _ _, rfl⟩, hm, rfl⟩
      intro k hk hord v hv
      rcases hold k hk hord with hu | hinit
      · rw [hu, hi] at hv
        exact absurd hv (by simp)
      · rcases hinit v hv with ⟨m, hm, hunit⟩
        exact ⟨m, hgrow.contains hm, hunit⟩
  | some i =>
      rcases hc₂.linkInitializer hm rfl hi with
        ⟨hc₃, hgrow', hsites, hpops, ⟨m, hmi, hmunit⟩, hnew⟩
      refine ⟨⟨⟨hc₃, ?_⟩, hgrow.trans hgrow', ?_, hpops⟩, hgrow'.contains hm, rfl⟩
      · -- Nodes of three kinds: the new one, its initializer, and those from before.
        intro k hk hord v hv
        rcases hnew k hk with hk' | hunit
        · rcases hold k hk' hord with hu | hinit
          · rw [hu, hi, Option.some.injEq] at hv
            exact ⟨m, hmi, hmunit.trans hv⟩
          · rcases hinit v hv with ⟨m', hm', hunit⟩
            exact ⟨m', hgrow'.contains (hgrow.contains hm'), hunit⟩
        · -- The initializer of an initializer is itself or absent.
          rw [hunit] at hv
          exact ⟨m, hmi, hmunit.trans (hok.initializer_of_initializer hi hv).symm⟩
      · exact (hsites _ hn).trans (Graph.sitesAt_create _ _ _ _ _)

/-- The node of a unit that every closed set has. It may have had a node before, and
    then nothing happens at all. -/
theorem Reading.nodeFor (ha : a.GivenBy h) (hok : a.Admissible h.bound) {n : Node} {c : Closure σ}
    (hc : Reading a only entries (some n) c) {u : CodeUnit} (hmem : a.Mentions u)
    (hneed : ∀ units, a.Closed only entries units → u ∈ units) :
    Advances a only entries n c (c.nodeFor h u).2 ∧
      (c.nodeFor h u).2.graph.contains (c.nodeFor h u).1 ∧ (c.nodeFor h u).1.unit = u := by
  cases hl : c.graph.lookup u .everywhere with
  | none => exact hc.nodeFor_of_none ha hok hl hmem hneed
  | some m =>
      rcases hc.wellFormed.lookup_eq_some_iff.1 hl with ⟨hm, hunit, _⟩
      have hsame : c.nodeFor h u = (m, c) := by rw [Closure.nodeFor, hl]
      rw [hsame]
      exact ⟨⟨hc, Grows.refl _, rfl, rfl⟩, Graph.contains_iff.2 hm, hunit⟩

/-! ## Linking the candidates of a site -/

/-- What a site in the code of a node may invoke is in every closed set. So the closure
    never goes beyond the least closed set. -/
theorem Sound.needed_of_candidate {g : Graph} (hg : Sound a only entries g) {n : Node}
    (hn : g.contains n) {site : CallSite} (hsite : site ∈ a.code entries n) {v : CodeUnit}
    (hv : a.Candidate only n.unit site v) :
    ∀ units, a.Closed only entries units → v ∈ units := by
  intro units hunits
  unfold Answers.code at hsite
  cases hk : n.kind with
  | fakeRoot =>
      rw [hk] at hsite
      -- A site of the root names an entrypoint, and closed sets have the entrypoints.
      rcases Answers.mem_entrySites hsite with ⟨e, he, htarget, hkind⟩
      rw [Answers.Candidate, hkind, htarget] at hv
      exact hunits.entry e he v hv.2 hv.1
  | fakeWorldClinit =>
      rw [hk] at hsite
      exact absurd hsite List.not_mem_nil
  | ordinary =>
      rw [hk] at hsite
      -- The unit of an ordinary node is needed, and closed sets have what it calls.
      exact hunits.call _ (hg.needed hn hk units hunits) site hsite v hv

/-- A candidate is linked: it has a node, and the site has this node among its targets.
    The call is due, because the site is in the code of the node that is being read, and no
    new site is recorded, because it was recorded before its candidates were asked for. -/
theorem Reading.link (ha : a.GivenBy h) (hok : a.Admissible h.bound) {n : Node} {c : Closure σ}
    (hc : Reading a only entries (some n) c) {site : CallSite} (hsite : site ∈ a.code entries n)
    (hrec : site ∈ c.graph.sitesAt n.id) {v : CodeUnit} (hv : a.Candidate only n.unit site v) :
    Advances a only entries n c (c.link h n site v) ∧
      ∃ m, (c.link h n site v).graph.contains m ∧ m.unit = v ∧
        (c.link h n site v).graph.Attributes n.id site m.id := by
  have hn := (hc.busy_node rfl).1
  rcases hc.nodeFor ha hok hv.mentions (hc.needed_of_candidate hn hsite hv)
    with ⟨hadv, hm, hunit⟩
  have hc₁ := hadv.reading
  have hn₁ := hadv.grows.contains hn
  have hgrow := grows_called hn₁ site (c.nodeFor h v).1
  have hdue : Due a only entries (c.nodeFor h v).2.graph n site (c.nodeFor h v).1 := by
    unfold Due
    split
    · next hk => exact absurd hk (hc.busy_node rfl).2
    · rw [hunit]
      exact ⟨hsite, hv⟩
  have hlink : c.link h n site v = { (c.nodeFor h v).2 with
      graph := (c.nodeFor h v).2.graph.called n site (c.nodeFor h v).1 } := rfl
  rw [hlink]
  refine ⟨⟨⟨hc₁.toUnderway.call site hn₁ (Or.inl rfl) hm hdue, ?_⟩, hadv.grows.trans hgrow, ?_,
    hadv.pops⟩, _, hgrow.contains hm, hunit, ?_⟩
  · intro k hk hord u hu
    rcases hc₁.initialized (Graph.contains_called.1 hk) hord u hu with ⟨m, hm, hunit⟩
    exact ⟨m, hgrow.contains hm, hunit⟩
  · -- The site was recorded before its candidates are linked.
    refine (Graph.sitesAt_called hc₁.wellFormed hn₁ hm n.id).trans ?_
    rw [hadv.sites, if_neg (fun hnew => hnew.2 hrec)]
  · exact (Graph.attributes_called hn₁).2 (Or.inr ⟨rfl, rfl, rfl⟩)

/-- All candidates of a list are linked. A link that was made stays while the others are
    made, because the graph only grows. -/
theorem Reading.links (ha : a.GivenBy h) (hok : a.Admissible h.bound) {n : Node}
    {site : CallSite} (hsite : site ∈ a.code entries n) :
    ∀ (us : List CodeUnit) {c : Closure σ}, Reading a only entries (some n) c →
      site ∈ c.graph.sitesAt n.id → (∀ v ∈ us, a.Candidate only n.unit site v) →
      Advances a only entries n c (us.foldl (Closure.link h n site) c) ∧
        ∀ v ∈ us, ∃ m, (us.foldl (Closure.link h n site) c).graph.contains m ∧ m.unit = v ∧
          (us.foldl (Closure.link h n site) c).graph.Attributes n.id site m.id := by
  intro us
  induction us with
  | nil =>
      intro c hc _ _
      exact ⟨⟨hc, Grows.refl _, rfl, rfl⟩, fun v hv => absurd hv List.not_mem_nil⟩
  | cons u rest ih =>
      intro c hc hrec hcand
      rcases hc.link ha hok hsite hrec (hcand u List.mem_cons_self) with ⟨hadv, m, hm, hunit, hat⟩
      -- Linking does not record the site again, so it is there for the next candidate too.
      have hrec' : site ∈ (c.link h n site u).graph.sitesAt n.id := by
        rw [hadv.sites]
        exact hrec
      rcases ih hadv.reading hrec' (fun v hv => hcand v (List.mem_cons_of_mem _ hv))
        with ⟨hrest, hlinked⟩
      refine ⟨hadv.trans hrest, ?_⟩
      intro v hv
      rcases List.mem_cons.1 hv with rfl | hv
      · exact ⟨m, hrest.grows.contains hm, hunit, hrest.grows.attributes hat⟩
      · exact hlinked v hv

/-! ## Asking for the candidates of a site -/

/-- The candidates of a site that calls, from the cache or from the hierarchy. The cache
    is keyed by what the site names and how it calls, and an answer depends on nothing
    else. -/
theorem Reading.resolve (ha : a.GivenBy h) {busy : Option Node} {c : Closure σ}
    (hc : Reading a only entries busy c) (site : CallSite) :
    (c.resolve h site).1 = a.found site.target site.kind ∧
      Reading a only entries busy (c.resolve h site).2 ∧
      (c.resolve h site).2.graph = c.graph ∧ (c.resolve h site).2.pops = c.pops := by
  -- What is new in the cache is what was just found.
  have hcache : ∀ {t k us},
      (c.candidates.insert (site.target, site.kind) (a.found site.target site.kind)).find? (t, k) =
        some us → us = a.found t k := by
    intro t k us hus
    rw [Table.find?_insert] at hus
    split at hus
    · next hkey =>
      rw [Prod.mk.injEq] at hkey
      rw [Option.some.injEq] at hus
      rw [← hus, hkey.1, hkey.2]
    · exact hc.candidates_eq hus
  unfold Closure.resolve
  cases hfind : c.candidates.find? (site.target, site.kind) with
  | some us => exact ⟨hc.candidates_eq hfind, hc, rfl, rfl⟩
  | none =>
      cases hk : site.kind.isOverriding with
      | true =>
          rcases ask_eq c (.overrides site.target) (ha.overrides site.target) with ⟨w, hask⟩
          have hfound : a.found site.target site.kind = a.overrides site.target := by
            rw [Answers.found, hk, if_pos rfl]
          simp only [hask, if_true, ← hfound]
          exact ⟨trivial, hc.congr rfl rfl rfl hcache hc.wrappers_eq, trivial, trivial⟩
      | false =>
          rcases ask_eq c (.single site.target) (ha.single site.target) with ⟨w, hask⟩
          have hfound : a.found site.target site.kind = (a.single site.target).toList := by
            rw [Answers.found, hk]
            rfl
          simp only [hask, Bool.false_eq_true, if_false, ← hfound]
          exact ⟨trivial, hc.congr rfl rfl rfl hcache hc.wrappers_eq, trivial, trivial⟩

/-- The candidate of a site that makes a function object, from the cache or from the
    hierarchy. -/
theorem Reading.resolveWrapper (ha : a.GivenBy h) {busy : Option Node} {c : Closure σ}
    (hc : Reading a only entries busy c) {n : Node} (hn : c.graph.contains n) (site : CallSite) :
    (c.resolveWrapper h n site).1 = (a.wrapper n.unit site).toList ∧
      Reading a only entries busy (c.resolveWrapper h n site).2 ∧
      (c.resolveWrapper h n site).2.graph = c.graph ∧
      (c.resolveWrapper h n site).2.pops = c.pops := by
  unfold Closure.resolveWrapper
  cases hfind : c.wrappers.find? (n.id, site) with
  | some o =>
      -- The cache is keyed by number, and numbers tell nodes apart.
      rcases hc.wrappers_eq hfind with ⟨k, hk, hid, ho⟩
      rw [Graph.eq_of_contains hk hn hid] at ho
      exact ⟨congrArg Option.toList ho, hc, rfl, rfl⟩
  | none =>
      rcases ask_eq c (.wrapper n site) (ha.wrapper n site) with ⟨w, hask⟩
      simp only [hask]
      refine ⟨trivial, hc.congr rfl rfl rfl hc.candidates_eq ?_, trivial, trivial⟩
      intro i site' o ho
      rw [Table.find?_insert] at ho
      split at ho
      · next hkey =>
        rw [Prod.mk.injEq] at hkey
        rw [Option.some.injEq] at ho
        exact ⟨n, hn, hkey.1, by rw [← ho, hkey.2]⟩
      · exact hc.wrappers_eq ho

/-- A site that makes a function object asks for its wrapper, and any other for its
    candidates. What holds after both ways of asking holds of the answer that a visit of
    the site goes on with. -/
theorem answer_cases {c : Closure σ} {n : Node} {site : CallSite}
    {P : List CodeUnit → Closure σ → Prop}
    (hwrapper : site.kind = .dynamic →
      P (c.resolveWrapper h n site).1 (c.resolveWrapper h n site).2)
    (hfound : site.kind ≠ .dynamic → P (c.resolve h site).1 (c.resolve h site).2) :
    ∃ us c', (if site.kind = .dynamic then c.resolveWrapper h n site else c.resolve h site) =
      (us, c') ∧ P us c' := by
  by_cases hk : site.kind = .dynamic
  · exact ⟨_, _, if_pos hk, hwrapper hk⟩
  · exact ⟨_, _, if_neg hk, hfound hk⟩

/-- A visit of a site links the relevant units of the answer, one after the other. The
    site was recorded before anything was asked. -/
theorem visitSite_of_answer {c c' : Closure σ} {n : Node} {site : CallSite} {us : List CodeUnit}
    (hask : (if site.kind = .dynamic
      then resolveWrapper h { c with graph := c.graph.recordSite n.id site } n site
      else resolve h { c with graph := c.graph.recordSite n.id site } site) = (us, c')) :
    c.visitSite h only n site = (us.filter (relevant h only)).foldl (Closure.link h n site) c' := by
  simp only [visitSite, hask]

/-- Either way of asking gives the candidates, in a state with the same graph. -/
theorem Reading.candidatesOf (ha : a.GivenBy h) {busy : Option Node} {c : Closure σ}
    (hc : Reading a only entries busy c) {n : Node} (hn : c.graph.contains n) (site : CallSite) :
    ∃ (us : List CodeUnit) (c' : Closure σ),
      (if site.kind = .dynamic then c.resolveWrapper h n site else c.resolve h site) = (us, c') ∧
      Reading a only entries busy c' ∧ c'.graph = c.graph ∧ c'.pops = c.pops ∧
      ∀ v, v ∈ us.filter (relevant h only) ↔ a.Candidate only n.unit site v := by
  simp only [List.mem_filter, ha.relevant_iff]
  refine answer_cases (fun hk => ?_) fun hk => ?_
  · rcases hc.resolveWrapper ha hn site with ⟨hus, hr, hg, hp⟩
    refine ⟨hr, hg, hp, fun v => ?_⟩
    rw [hus, Answers.candidate_iff_of_dynamic hk]
  · rcases hc.resolve ha site with ⟨hus, hr, hg, hp⟩
    refine ⟨hr, hg, hp, fun v => ?_⟩
    rw [hus, Answers.candidate_iff_mem_found hk]

/-! ## Reading the sites of a node -/

/-- A site is recorded and all its candidates are linked. It is recorded first, so that
    linking does not record it again. -/
theorem Reading.visitSite (ha : a.GivenBy h) (hok : a.Admissible h.bound) {n : Node}
    {c : Closure σ} (hc : Reading a only entries (some n) c) {site : CallSite}
    (hsite : site ∈ a.code entries n) :
    Reading a only entries (some n) (c.visitSite h only n site) ∧
      Grows c.graph (c.visitSite h only n site).graph ∧
      (c.visitSite h only n site).graph.sitesAt n.id =
        (if site ∈ c.graph.sitesAt n.id then c.graph.sitesAt n.id
          else c.graph.sitesAt n.id ++ [site]) ∧
      (c.visitSite h only n site).pops = c.pops ∧
      Linked a only (c.visitSite h only n site).graph n site := by
  have hn := (hc.busy_node rfl).1
  have hkeeps := Graph.keeps_recordSite c.graph n.id site
  -- The site is recorded before anything is asked about it.
  let c₁ : Closure σ := { c with graph := c.graph.recordSite n.id site }
  have hc₁ : Reading a only entries (some n) c₁ := by
    refine ⟨hc.toUnderway.recordSite hsite, ?_⟩
    intro k hk hord v hv
    rcases hc.initialized (hkeeps.contains_iff.1 hk) hord v hv with ⟨m, hm, hunit⟩
    exact ⟨m, hkeeps.contains_iff.2 hm, hunit⟩
  have hsites : c₁.graph.sitesAt n.id = if site ∈ c.graph.sitesAt n.id then c.graph.sitesAt n.id
      else c.graph.sitesAt n.id ++ [site] := by
    refine (Graph.sitesAt_recordSite hc.wellFormed.toAttributed (Graph.live_of_contains hn) site
      n.id).trans ?_
    by_cases hold : site ∈ c.graph.sitesAt n.id <;> simp [hold]
  have hrec : site ∈ c₁.graph.sitesAt n.id := by
    rw [hsites]
    by_cases hold : site ∈ c.graph.sitesAt n.id
    · rw [if_pos hold]
      exact hold
    · rw [if_neg hold]
      exact List.mem_append_right _ List.mem_cons_self
  rcases hc₁.candidatesOf ha (hkeeps.contains_iff.2 hn) site
    with ⟨us, c₂, heq, hc₂, hgraph, hpops, hmem⟩
  rcases Reading.links ha hok hsite (us.filter (relevant h only)) hc₂ (by rw [hgraph]; exact hrec)
    (fun v hv => (hmem v).1 hv) with ⟨hadv, hlinked⟩
  rw [visitSite_of_answer heq]
  refine ⟨hadv.reading, ?_, ?_, hadv.pops.trans hpops, fun v hv => hlinked v ((hmem v).2 hv)⟩
  · refine (grows_recordSite c.graph n.id site).trans ?_
    have hgrow := hadv.grows
    rw [hgraph] at hgrow
    exact hgrow
  · rw [hadv.sites, hgraph, hsites]

/-- All sites of a list are recorded, in order and without repetitions, behind those
    that were there, and all their candidates are linked. The list `seen` has the sites
    visited so far as the code has them, with repetitions. -/
theorem Reading.visitSites (ha : a.GivenBy h) (hok : a.Admissible h.bound) {n : Node} :
    ∀ (sites seen : List CallSite) {c : Closure σ}, Reading a only entries (some n) c →
      c.graph.sitesAt n.id = seen.eraseDups → (∀ site ∈ sites, site ∈ a.code entries n) →
      Reading a only entries (some n) (sites.foldl (Closure.visitSite h only n) c) ∧
      Grows c.graph (sites.foldl (Closure.visitSite h only n) c).graph ∧
      (sites.foldl (Closure.visitSite h only n) c).graph.sitesAt n.id =
        (seen ++ sites).eraseDups ∧
      (sites.foldl (Closure.visitSite h only n) c).pops = c.pops ∧
      ∀ site ∈ sites, Linked a only (sites.foldl (Closure.visitSite h only n) c).graph n site := by
  intro sites
  induction sites with
  | nil =>
      intro seen c hc hseen _
      rw [List.append_nil]
      exact ⟨hc, Grows.refl _, hseen, rfl, fun site hs => absurd hs List.not_mem_nil⟩
  | cons site rest ih =>
      intro seen c hc hseen hcode
      rcases hc.visitSite ha hok (hcode site List.mem_cons_self)
        with ⟨hc₁, hgrow, hsites, hpops, hlinked⟩
      -- One more site of the list is one more of those seen, also if it repeats an earlier one.
      rw [hseen, ← eraseDups_concat] at hsites
      rcases ih (seen ++ [site]) hc₁ hsites (fun s hs => hcode s (List.mem_cons_of_mem _ hs))
        with ⟨hc₂, hgrow₂, hsites₂, hpops₂, hlinked₂⟩
      rw [List.append_assoc, List.singleton_append] at hsites₂
      refine ⟨hc₂, hgrow.trans hgrow₂, hsites₂, hpops₂.trans hpops, ?_⟩
      intro s hs
      rcases List.mem_cons.1 hs with rfl | hs
      · exact hlinked.mono hgrow₂
      · exact hlinked₂ s hs

/-! ## Taking a node off the worklist -/

/-- The node that is taken off the worklist is being read. It is not waiting any more
    and not finished yet, and it is counted among the nodes taken off. -/
theorem Reading.take {c : Closure σ} (hc : Reading a only entries none c) {n : Node}
    {rest : List Node} (hw : c.worklist = n :: rest) :
    Reading a only entries (some n) { c with worklist := rest, pops := c.pops + 1 } := by
  have hmem : ∀ {k}, k ∈ rest → k ∈ c.worklist := fun hk => hw ▸ List.mem_cons_of_mem n hk
  have hnodup := hc.worklist_nodup
  rw [hw, List.nodup_cons] at hnodup
  rcases hc.waiting (show n ∈ c.worklist by rw [hw]; exact List.mem_cons_self) with ⟨hn, hk, _⟩
  refine ⟨⟨hc.toSound, hc.candidates_eq, hc.wrappers_eq, hc.root_sites, ?_, hnodup.2, ?_,
    fun hk => hc.unread (hmem hk), ?_, ?_⟩, hc.initialized⟩
  · intro k hk'
    rw [Option.some.injEq] at hk'
    rw [← hk']
    exact ⟨hn, hk⟩
  · intro k hk'
    refine ⟨(hc.waiting (hmem hk')).1, (hc.waiting (hmem hk')).2.1, ?_⟩
    intro heq
    rw [Option.some.injEq] at heq
    rw [← heq] at hk'
    exact hnodup.1 hk'
  · -- Only the node being read is excepted from being finished, and it was waiting before.
    intro k hk hkind hwait hbusy
    refine hc.finished hk hkind ?_ (by simp)
    rw [hw, List.mem_cons]
    rintro (rfl | hk')
    · exact hbusy rfl
    · exact hwait hk'
  · have hb := hc.balance
    rw [hw, List.length_cons] at hb
    push_cast at hb ⊢
    omega

/-- The sites to be read are those of the code. -/
theorem Reading.sitesOf (ha : a.GivenBy h) {n : Node} {c : Closure σ}
    (hc : Reading a only entries (some n) c) :
    (c.sitesOf h n).1 = a.code entries n ∧ Reading a only entries (some n) (c.sitesOf h n).2 ∧
      (c.sitesOf h n).2.graph = c.graph ∧ (c.sitesOf h n).2.pops = c.pops := by
  have hn := (hc.busy_node rfl).1
  unfold Closure.sitesOf Answers.code
  cases hk : n.kind with
  | fakeRoot =>
      -- The root has no code. Its sites were recorded when the closure was started.
      refine ⟨?_, hc, rfl, rfl⟩
      rw [← hc.root_sites, ← (hc.wellFormed.kind_eq_fakeRoot_iff hn).1 hk]
      exact Graph.callSites_eq hn
  | fakeWorldClinit => exact ⟨rfl, hc, rfl, rfl⟩
  | ordinary =>
      rcases ask_eq c (.callSites n) (ha.callSites n) with ⟨w, hask⟩
      simp only [hask]
      exact ⟨trivial, hc.congr rfl rfl rfl hc.candidates_eq hc.wrappers_eq, trivial, trivial⟩

/-- A node that was read and has everything its code asks for is finished. -/
theorem Reading.finish {n : Node} {c : Closure σ} (hc : Reading a only entries (some n) c)
    (hn : Finished a only entries c.graph n) : Reading a only entries none c := by
  refine ⟨⟨hc.toSound, hc.candidates_eq, hc.wrappers_eq, hc.root_sites, by simp,
    hc.worklist_nodup, fun hk => ⟨(hc.waiting hk).1, (hc.waiting hk).2.1, by simp⟩, hc.unread, ?_,
    hc.balance⟩, hc.initialized⟩
  intro k hk hkind hwait _
  by_cases heq : n = k
  · rw [← heq]
    exact hn
  · exact hc.finished hk hkind hwait (fun h => heq (Option.some.inj h))

/-- Reading the code of a node that waits records the sites of the code: the node has
    no sites yet, or it is the root and has those of its code. -/
theorem Reading.sites_of_waiting {c : Closure σ} (hc : Reading a only entries none c) {n : Node}
    (hwaits : n ∈ c.worklist) :
    ∃ seen, c.graph.sitesAt n.id = seen.eraseDups ∧
      (seen ++ a.code entries n).eraseDups = (a.code entries n).eraseDups := by
  rcases hc.waiting hwaits with ⟨hn, hk, _⟩
  rcases hc.wellFormed.kind_cases hn with ⟨hid, hkind, _⟩ | ⟨_, hkind, _⟩ | ⟨_, _, hkind⟩
  · -- The root has its sites from the start, and reading them once more adds none.
    have hcode : a.code entries n = Answers.entrySites entries := by
      rw [Answers.code, hkind]
    have hnone : (a.code entries n).removeAll (a.code entries n) = [] := by
      rw [List.removeAll, List.filter_eq_nil_iff]
      simp
    refine ⟨a.code entries n, ?_, ?_⟩
    · rw [hid, hc.root_sites, hcode, eraseDups_of_nodup (Answers.entrySites_nodup entries)]
    · rw [List.eraseDups_append, hnone, List.eraseDups_nil, List.append_nil]
  · exact absurd hkind hk
  · exact ⟨[], hc.unread hwaits hkind, rfl⟩

/-- Reading a node keeps the invariant, and the node is finished afterwards. It is taken
    off the worklist, its code is asked for, and all sites of the code are visited. Then
    its sites are those of the code and all their candidates are linked, which is what
    being finished means. -/
theorem Reading.step (ha : a.GivenBy h) (hok : a.Admissible h.bound) {c : Closure σ}
    (hc : Reading a only entries none c) {n : Node} {rest : List Node}
    (hw : c.worklist = n :: rest) :
    Reading a only entries none (Closure.step h only { c with worklist := rest } n) ∧
      (Closure.step h only { c with worklist := rest } n).pops = c.pops + 1 := by
  have hwaits : n ∈ c.worklist := by
    rw [hw]
    exact List.mem_cons_self
  have htaken := hc.take hw
  rcases htaken.sitesOf ha with ⟨hcode, hc₁, hgraph, hpops⟩
  rcases hc.sites_of_waiting hwaits with ⟨seen, hseen, hfinal⟩
  rcases Reading.visitSites ha hok (a.code entries n) seen hc₁ (by rw [hgraph]; exact hseen)
    (fun site hsite => hsite) with ⟨hc₂, _, hsites, hpops₂, hlinked⟩
  -- A step asks for the code and then visits its sites.
  have hstep : Closure.step h only { c with worklist := rest } n = (a.code entries n).foldl
      (Closure.visitSite h only n)
      (Closure.sitesOf h { c with worklist := rest, pops := c.pops + 1 } n).2 := by
    rw [← hcode]
    rfl
  rw [hstep]
  exact ⟨hc₂.finish ⟨hsites.trans hfinal, hlinked⟩, hpops₂.trans hpops⟩

end Closure

end CallAtlas
