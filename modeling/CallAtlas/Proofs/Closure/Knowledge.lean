import CallAtlas.Proofs.Closure.Prefix

/-!
# What a Closure Holds Is Known

A hierarchy may find its answers as it goes. A unit in one of its answers is then a unit of
the state in which it was asked, and what a closure does with the unit may come many
questions later. `Hierarchy.Mentions` is too weak to speak about this, since it forgets in
which state an answer was given.

Here a unit is known to a state of the hierarchy. A hierarchy `Learns` if questions take
nothing back, so that whatever was known stays known, and if the units in its answers are
known from then on. Then everything that a closure holds is known to the state that it is
in: the units of its nodes and all that its caches keep. The hierarchy may keep an invariant
of its own along the way.

Nothing is assumed about what a unit that is known is like, and nothing about the order in
which questions are asked.

## Main definitions

* `Graph.AllSites`: All sites of a graph have a property.
* `Learns`: A question takes nothing back, and its answer is known afterwards.
* `Hierarchy.Learns`: All questions are like this, and sites have kinds with names.
* `Closure.Informed`: What a closure holds is known.
* `Closure.Continues`: A closure that holds known units follows another one.

## Theorems

* `Closure.Informed.nodeFor`: The node of a unit that is known.
* `Closure.Informed.visitSite`: A site with a kind that has a name.
* `Closure.informed_build`: What a built closure holds is known.
-/

namespace CallAtlas

/-! ## Properties of all sites -/

namespace Graph

variable {g : Graph} {P : CallSite → Prop} {site : CallSite}

/-- All sites that are recorded in a graph have a property. -/
def AllSites (P : CallSite → Prop) (g : Graph) : Prop := ∀ i, ∀ s ∈ g.sitesAt i, P s

/-- A change of one slot keeps a property of all sites if every site that is new in that
    slot has it. All edits that record sites are such changes. -/
theorem AllSites.modifySlot (h : g.AllSites P) (id : Int) {f : Slot → Slot}
    (hf : ∀ slot : Slot, ∀ s ∈ (f slot).sites, s ∈ slot.sites ∨ P s) :
    (g.modifySlot id f).AllSites P := by
  intro i s hs
  have hold := h i s
  unfold sitesAt at hs hold
  rw [slot?_modifySlot] at hs
  cases hslot : g.slot? i with
  | none => simp [hslot] at hs
  | some slot =>
      rw [hslot] at hs hold
      by_cases hi : i = id
      · rw [if_pos hi] at hs
        -- A site of the changed slot is an old one, or the change brings it with the property.
        exact (hf slot s hs).elim hold fun hP => hP
      · rw [if_neg hi] at hs
        exact hold hs

/-- Recording adds the site that is recorded at most. -/
theorem mem_sites_record {slot : Slot} {s : CallSite} (hs : s ∈ (slot.record site).sites) :
    s ∈ slot.sites ∨ s = site := by
  unfold Slot.record at hs
  split at hs
  · exact Or.inl hs
  · rw [List.mem_append, List.mem_singleton] at hs
    exact hs

theorem AllSites.recordSite (h : g.AllSites P) (id : Int) (hsite : P site) :
    (g.recordSite id site).AllSites P := by
  refine h.modifySlot id fun slot s hs => (mem_sites_record hs).imp_right fun heq => ?_
  rw [heq]
  exact hsite

theorem AllSites.recordSites (id : Int) : ∀ (sites : List CallSite) {g : Graph}, g.AllSites P →
    (∀ s ∈ sites, P s) → (g.recordSites id sites).AllSites P := by
  intro sites
  induction sites with
  | nil => exact fun h _ => h
  | cons site rest ih =>
      intro g h hsites
      rw [List.forall_mem_cons] at hsites
      exact ih (h.recordSite id hsites.1) hsites.2

theorem AllSites.addTarget (h : g.AllSites P) (src dst : Int) (hsite : P site) :
    (g.addTarget src site dst).AllSites P := by
  refine h.modifySlot src fun slot s hs => (mem_sites_record hs).imp_right fun heq => ?_
  rw [heq]
  exact hsite

/-- Edges are not sites. -/
theorem AllSites.link (h : g.AllSites P) (src dst : Int) : (g.link src dst).AllSites P := by
  unfold Graph.link
  split
  · exact h
  · split
    · exact h
    · have hsrc := h.modifySlot src (f := fun s => { s with succs := s.succs.insert dst })
        fun _ _ hs => Or.inl hs
      have hdst := hsrc.modifySlot dst (f := fun d => { d with preds := d.preds.insert src })
        fun _ _ hs => Or.inl hs
      -- The number of edges is not a site.
      exact fun i s hs => hdst i s hs

theorem AllSites.create (h : g.AllSites P) (u : CodeUnit) (c : Context) (k : NodeKind) :
    (g.create u c k).1.AllSites P := by
  intro i s hs
  rw [sitesAt_create] at hs
  exact h i s hs

/-- A call records its site, and registering its callee records nothing. -/
theorem AllSites.called (h : g.AllSites P) (n m : Node) (hsite : P site) :
    (g.called n site m).AllSites P := by
  refine AllSites.link (AllSites.addTarget ?_ n.id m.id hsite) n.id m.id
  split
  · intro i s hs
    rw [sitesAt_markEntrypoint] at hs
    exact h i s hs
  · exact h

end Graph

/-! ## Hierarchies that learn -/

variable {σ : Type} {Good : σ → Prop} {Knows : σ → CodeUnit → Prop}

/-- A question that is asked in a good state leaves one. It takes nothing back, and the
    units in the answer are known. -/
def Learns {α : Type} (Good : σ → Prop) (Knows : σ → CodeUnit → Prop) (answer : StateM σ α)
    (units : α → List CodeUnit) : Prop :=
  ∀ w, Good w → Good (answer.run w).2 ∧ (∀ u, Knows w u → Knows (answer.run w).2 u) ∧
    ∀ u ∈ units (answer.run w).1, Knows (answer.run w).2 u

/-- The questions of a hierarchy take nothing back, the units in its answers are known,
    and its sites have kinds with names. -/
structure Hierarchy.Learns (h : Hierarchy σ) (Good : σ → Prop) (Knows : σ → CodeUnit → Prop) :
    Prop where
  single : ∀ ref, CallAtlas.Learns Good Knows (h.single ref) Option.toList
  overrides : ∀ ref, CallAtlas.Learns Good Knows (h.overrides ref) id
  initializer : ∀ u, CallAtlas.Learns Good Knows (h.initializer u) Option.toList
  wrapper : ∀ n site, CallAtlas.Learns Good Knows (h.wrapper n site) Option.toList
  callSites : ∀ n, CallAtlas.Learns Good Knows (h.callSites n) fun _ => []
  named : ∀ n w, Good w → ∀ s ∈ ((h.callSites n).run w).1, s.kind ∈ Dispatch.named

namespace Closure

variable {h : Hierarchy σ} {n : Node} {site : CallSite} {u : CodeUnit} {c c' c'' : Closure σ}

/-- What a closure holds is known to the state that its hierarchy is in. -/
structure Informed (Good : σ → Prop) (Knows : σ → CodeUnit → Prop) (c : Closure σ) : Prop where
  good : Good c.world
  nodes : ∀ {n}, c.graph.contains n → n.kind = .ordinary → Knows c.world n.unit
  candidates : ∀ {key us}, c.candidates.find? key = some us → ∀ u ∈ us, Knows c.world u
  wrappers : ∀ {key u}, c.wrappers.find? key = some (some u) → Knows c.world u
  sites : c.graph.AllSites fun s => s.kind ∈ Dispatch.named

/-- A closure that holds known units follows another one, and nothing was taken back. -/
structure Continues (Good : σ → Prop) (Knows : σ → CodeUnit → Prop) (c c' : Closure σ) : Prop where
  informed : Informed Good Knows c'
  known : ∀ u, Knows c.world u → Knows c'.world u

theorem Continues.trans (h₁ : Continues Good Knows c c') (h₂ : Continues Good Knows c' c'') :
    Continues Good Knows c c'' :=
  ⟨h₂.informed, fun u hu => h₂.known u (h₁.known u hu)⟩

namespace Informed

theorem refl (hc : Informed Good Knows c) : Continues Good Knows c c := ⟨hc, fun _ hu => hu⟩

/-- Asking a question. The hierarchy may forget nothing that it knew, so what the
    closure holds is still known afterwards, and what was answered is known as well. -/
theorem ask {α : Type} {answer : StateM σ α} {units : α → List CodeUnit}
    (hc : Informed Good Knows c) (q : Question) (hlearns : Learns Good Knows answer units) :
    Continues Good Knows c (c.ask q answer).2 ∧
      ∀ u ∈ units (c.ask q answer).1, Knows (c.ask q answer).2.world u := by
  rcases hlearns c.world hc.good with ⟨hgood, hkept, hnew⟩
  exact ⟨⟨⟨hgood, fun hn hk => hkept _ (hc.nodes hn hk), fun hus u hu =>
    hkept u (hc.candidates hus u hu), fun hu => hkept _ (hc.wrappers hu), hc.sites⟩, hkept⟩, hnew⟩

/-! ## Nodes -/

/-- A node for a unit that is known. -/
theorem newNode (hc : Informed Good Knows c) (hu : Knows c.world u) :
    Continues Good Knows c (c.newNode u).2 := by
  refine ⟨⟨hc.good, ?_, hc.candidates, hc.wrappers, hc.sites.create u .everywhere .ordinary⟩,
    fun _ hv => hv⟩
  intro k hk hord
  rcases Graph.contains_create.1 hk with hold | rfl
  · exact hc.nodes hold hord
  · exact hu

theorem called (hc : Informed Good Knows c) (n m : Node) (hsite : site.kind ∈ Dispatch.named) :
    Continues Good Knows c { c with graph := c.graph.called n site m } :=
  ⟨⟨hc.good, fun hk => hc.nodes (Graph.contains_called.1 hk), hc.candidates, hc.wrappers,
    hc.sites.called n m hsite⟩, fun _ hv => hv⟩

/-- An initializer that is known gets a node and a call, and calls of this kind are static. -/
theorem linkInitializer (hc : Informed Good Knows c) (hu : Knows c.world u) :
    Continues Good Knows c (c.linkInitializer u) := by
  cases hl : c.graph.lookup u .everywhere with
  | some m =>
      rw [linkInitializer_of_some hl]
      exact hc.refl
  | none =>
      rw [linkInitializer_of_none hl]
      have hmade := hc.newNode hu
      let site : CallSite := { pc := c.initializers, target := u.ref, kind := .static }
      have hsite : site.kind ∈ Dispatch.named := (by decide : Dispatch.static ∈ Dispatch.named)
      have hcalled := hmade.informed.called c.clinitNode (c.newNode u).1 hsite
      have hboth := hmade.trans hcalled
      -- What is known does not depend on how many initializers there are.
      exact ⟨{ hboth.informed with }, hboth.known⟩

/-- The node of a unit that is known. Its initializer comes out of an answer, so it is known too. -/
theorem nodeFor (hc : Informed Good Knows c) (hh : h.Learns Good Knows) (hu : Knows c.world u) :
    Continues Good Knows c (c.nodeFor h u).2 := by
  unfold Closure.nodeFor
  cases hl : c.graph.lookup u .everywhere with
  | some m => exact hc.refl
  | none =>
      have hmade := hc.newNode hu
      -- The new node is known because its unit is, and only then is its initializer asked for.
      rcases hmade.informed.ask (.initializer u) (hh.initializer u) with ⟨hasked, hknown⟩
      rcases hask : (c.newNode u).2.ask (.initializer u) (h.initializer u) with ⟨o, c₂⟩
      rw [hask] at hasked hknown
      simp only [hask]
      cases o with
      | none => exact hmade.trans hasked
      | some i =>
          have hi := hknown i (List.mem_singleton.2 rfl)
          exact (hmade.trans hasked).trans (hasked.informed.linkInitializer hi)

/-- A callee that is known is linked. -/
theorem link (hc : Informed Good Knows c) (hh : h.Learns Good Knows)
    (hsite : site.kind ∈ Dispatch.named) (hu : Knows c.world u) :
    Continues Good Knows c (c.link h n site u) := by
  have hnode := hc.nodeFor hh hu
  exact hnode.trans (hnode.informed.called n (c.nodeFor h u).1 hsite)

/-- Callees that are known are linked one after the other. The hierarchy may learn while
    one is linked, and the others are still known afterwards. -/
theorem links (hh : h.Learns Good Knows) (hsite : site.kind ∈ Dispatch.named) :
    ∀ (us : List CodeUnit) {c : Closure σ}, Informed Good Knows c → (∀ u ∈ us, Knows c.world u) →
      Continues Good Knows c (us.foldl (Closure.link h n site) c) := by
  intro us
  induction us with
  | nil => exact fun hc _ => hc.refl
  | cons u rest ih =>
      intro c hc hus
      rw [List.forall_mem_cons] at hus
      have hfirst := hc.link (n := n) hh hsite hus.1
      exact hfirst.trans (ih hfirst.informed fun v hv => hfirst.known v (hus.2 v hv))

/-! ## Candidates -/

/-- The candidates of a site are known, whether they were just found or have been in the
    cache for some time. -/
theorem resolve (hc : Informed Good Knows c) (hh : h.Learns Good Knows) (site : CallSite) :
    Continues Good Knows c (c.resolve h site).2 ∧
      ∀ u ∈ (c.resolve h site).1, Knows (c.resolve h site).2.world u := by
  -- Whatever is asked, units that are known go into the cache.
  have hstore : ∀ {us : List CodeUnit} {c' : Closure σ}, Continues Good Knows c c' →
      (∀ u ∈ us, Knows c'.world u) → Continues Good Knows c
        { c' with candidates := c'.candidates.insert (site.target, site.kind) us } := by
    intro us c' hc' hus
    refine ⟨⟨hc'.informed.good, hc'.informed.nodes, ?_, hc'.informed.wrappers,
      hc'.informed.sites⟩, hc'.known⟩
    intro key vs hvs
    rw [Table.find?_insert] at hvs
    split at hvs
    · cases hvs
      exact hus
    · exact hc'.informed.candidates hvs
  unfold Closure.resolve
  cases hfind : c.candidates.find? (site.target, site.kind) with
  | some us => exact ⟨hc.refl, hc.candidates hfind⟩
  | none =>
      cases hk : site.kind.isOverriding with
      | true =>
          rcases hc.ask (.overrides site.target) (hh.overrides site.target) with ⟨hasked, hknown⟩
          exact ⟨hstore hasked hknown, hknown⟩
      | false =>
          rcases hc.ask (.single site.target) (hh.single site.target) with ⟨hasked, hknown⟩
          exact ⟨hstore hasked hknown, hknown⟩

/-- A function object that was found for a site is known. -/
theorem resolveWrapper (hc : Informed Good Knows c) (hh : h.Learns Good Knows) (n : Node)
    (site : CallSite) :
    Continues Good Knows c (c.resolveWrapper h n site).2 ∧
      ∀ u ∈ (c.resolveWrapper h n site).1, Knows (c.resolveWrapper h n site).2.world u := by
  unfold Closure.resolveWrapper
  cases hfind : c.wrappers.find? (n.id, site) with
  -- What the cache has was known when it was written, and what is known stays known.
  | some o =>
      refine ⟨hc.refl, fun u hu => ?_⟩
      have hstored : c.wrappers.find? (n.id, site) = some (some u) := by
        rw [hfind, Option.mem_toList.1 hu]
      exact hc.wrappers hstored
  | none =>
      rcases hc.ask (.wrapper n site) (hh.wrapper n site) with ⟨hasked, hknown⟩
      refine ⟨⟨⟨hasked.informed.good, hasked.informed.nodes, hasked.informed.candidates, ?_,
        hasked.informed.sites⟩, hasked.known⟩, hknown⟩
      intro key u hu
      rw [Table.find?_insert] at hu
      split at hu
      · -- The entry that is new holds the answer that was just given.
        exact hknown u (Option.mem_toList.2 (Option.some.inj hu))
      · exact hasked.informed.wrappers hu

/-! ## Reading nodes -/

/-- A site with a kind that has a name is visited. The site is recorded, a question is
    put, and what was answered is linked. -/
theorem visitSite (hc : Informed Good Knows c) (hh : h.Learns Good Knows) (only : Bool)
    (hsite : site.kind ∈ Dispatch.named) : Continues Good Knows c (c.visitSite h only n site) := by
  have hrecord : Informed Good Knows { c with graph := c.graph.recordSite n.id site } :=
    ⟨hc.good, fun hk => hc.nodes ((Graph.keeps_recordSite c.graph n.id site).contains_iff.1 hk),
      hc.candidates, hc.wrappers, hc.sites.recordSite n.id hsite⟩
  -- Which question is put depends on the site. Both leave known units behind.
  rcases answer_cases (P := fun us c' =>
      Continues Good Knows { c with graph := c.graph.recordSite n.id site } c' ∧
        ∀ u ∈ us, Knows c'.world u)
    (fun _ => hrecord.resolveWrapper hh n site) (fun _ => hrecord.resolve hh site)
    with ⟨us, c₂, hask, hasked, hus⟩
  rw [visitSite_of_answer hask]
  have hlinks := links (n := n) hh hsite (us.filter (relevant h only)) hasked.informed
    fun u hu => hus u (List.mem_of_mem_filter hu)
  exact ⟨hlinks.informed, fun u hu => hlinks.known u (hasked.known u hu)⟩

/-- All sites of a list are visited. -/
theorem visitSites (hh : h.Learns Good Knows) (only : Bool) :
    ∀ (sites : List CallSite) {c : Closure σ}, Informed Good Knows c →
      (∀ s ∈ sites, s.kind ∈ Dispatch.named) →
      Continues Good Knows c (sites.foldl (Closure.visitSite h only n) c) := by
  intro sites
  induction sites with
  | nil => exact fun hc _ => hc.refl
  | cons site rest ih =>
      intro c hc hsites
      rw [List.forall_mem_cons] at hsites
      have hfirst := hc.visitSite (n := n) hh only hsites.1
      exact hfirst.trans (ih hfirst.informed hsites.2)

/-- The sites of a node. Those of the root are read off the graph, and the others are
    asked for, so both have kinds with names for different reasons. -/
theorem sitesOf (hc : Informed Good Knows c) (hh : h.Learns Good Knows) (n : Node) :
    Continues Good Knows c (c.sitesOf h n).2 ∧
      ∀ s ∈ (c.sitesOf h n).1, s.kind ∈ Dispatch.named := by
  unfold Closure.sitesOf
  cases n.kind with
  | fakeRoot =>
      refine ⟨hc.refl, fun s hs => hc.sites n.id s ?_⟩
      by_cases hn : c.graph.contains n
      · rwa [← Graph.callSites_eq hn]
      · rw [Graph.callSites_of_not_contains hn] at hs
        cases hs
  | fakeWorldClinit => exact ⟨hc.refl, fun s hs => absurd hs List.not_mem_nil⟩
  | ordinary => exact ⟨(hc.ask _ (hh.callSites n)).1, hh.named n c.world hc.good⟩

/-- A node is read. -/
theorem step (hc : Informed Good Knows c) (hh : h.Learns Good Knows) (only : Bool) (n : Node) :
    Continues Good Knows c (step h only c n) := by
  have hpop : Continues Good Knows c { c with pops := c.pops + 1 } :=
    ⟨{ hc with }, fun _ hu => hu⟩
  rcases hpop.informed.sitesOf hh n with ⟨hasked, hnamed⟩
  exact hpop.trans (hasked.trans (visitSites hh only _ hasked.informed hnamed))

/-- Several nodes are read. The induction is on how many, and each step leaves a closure
    to which the induction hypothesis applies. -/
theorem advance (hh : h.Learns Good Knows) (only : Bool) (k : Nat) :
    ∀ {c : Closure σ}, Informed Good Knows c → Continues Good Knows c (advance h only k c) := by
  induction k with
  | zero => exact fun hc => hc.refl
  | succ k ih =>
      intro c hc
      cases hw : c.worklist with
      | nil =>
          rw [advance_of_done _ hw]
          exact hc.refl
      | cons n rest =>
          -- Taking a node off the worklist teaches nothing.
          have htake : Continues Good Knows c { c with worklist := rest } :=
            ⟨{ hc with }, fun _ hu => hu⟩
          have hstep := htake.trans (htake.informed.step hh only n)
          rw [advance_succ _ hw]
          exact hstep.trans (ih hstep.informed)

end Informed

/-- What a closure holds before any node is read: two roots, empty caches, and the sites
    of the root, which are made up by the closure itself. -/
theorem informed_start {world : σ} (hgood : Good world) (serial : Nat) (entries : List CodeUnit) :
    Informed Good Knows (start world serial entries) := by
  refine ⟨hgood, ?_, ?_, ?_, ?_⟩
  · -- The only nodes are the roots, which are not ordinary.
    intro n hn hord
    rw [graph_start, (Graph.keeps_recordSites Graph.rootId _ _).contains_iff] at hn
    exact absurd hord (not_ordinary_fresh hn)
  · intro key us hus
    cases hus
  · intro key u hu
    cases hu
  · have hfresh : (Graph.fresh serial).AllSites fun s => s.kind ∈ Dispatch.named := by
      intro i s hs
      rw [Graph.sitesAt_fresh] at hs
      cases hs
    rw [graph_start]
    refine Graph.AllSites.recordSites Graph.rootId _ hfresh fun s hs => ?_
    rcases List.mem_map.1 hs with ⟨_, _, rfl⟩
    have hspecial : Dispatch.special ∈ Dispatch.named := by decide
    exact hspecial

/-- What a built closure holds is known, also when it was cut short: a run that ends
    early is a run of fewer steps. -/
theorem informed_build (hh : h.Learns Good Knows) {world : σ} (hgood : Good world) (serial : Nat)
    (only : Bool) (entries : List CodeUnit) (life : Lifetime) :
    Continues Good Knows (start world serial entries)
      (build h world serial only entries life).1 := by
  have hstart : Informed Good Knows (start world serial entries) :=
    informed_start hgood serial entries
  rcases exists_run_eq_advance h only (h.bound + 1) life (start world serial entries) with ⟨k, hk⟩
  rw [build, hk]
  exact Informed.advance hh only k hstart

end Closure

end CallAtlas
