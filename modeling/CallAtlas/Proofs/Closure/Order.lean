import CallAtlas.Proofs.Closure.Moves
import CallAtlas.Proofs.Lawful

/-!
# The Order of a Closure

A closure that is cut short leaves a graph behind. What that graph has to do with the
whole one rests on two facts about the order in which things happen. Nothing that is in
the graph is ever moved or taken away: nodes, sites and entrypoints come to stand
behind those that are there. And a node is written to only while it is being read,
apart from the fake world-clinit node, which no one reads.

The first fact is `Grown`, between two graphs, with the numbers that may have been
written to as a parameter. It is kept by each kind of change, and it composes. The
second is in the invariant `Orderly`: a node that waits has no code in the graph yet,
and each node there ever was waits, is being read, or was read.

Neither depends on what the hierarchy answers. Units may be synthetic, and classes of
initializers may have initializers of their own.

## Main definitions

* `Graph.Grown`: One graph continues another.
* `Closure.Orderly`: Nodes wait without code, are being read, or were read.
* `Closure.Later`: One state continues another, and nothing waits twice.
* `Closure.Open`: The numbers that may still be written to.
* `Closure.CallsAnswers`: What is called are answers.

## Theorems

* `Graph.Grown.callSites_eq`, `Graph.Grown.targets_eq`: What is not written to stays.
* `Graph.Grown.entrypoints_prefix`: Entrypoints come behind those that are there.
* `Closure.Orderly.move`: A move keeps the order.
* `Closure.Orderly.step`: Reading a node keeps the order.
* `Closure.CallsAnswers.move`: A move calls answers only.
-/

namespace CallAtlas

/-! ## Graphs that continue others -/

namespace Graph

variable {g g' : Graph} {touched : Int → Prop} {n m : Node} {site : CallSite}

/-- One graph continues another: everything comes behind what is there, and at numbers
    that are not touched nothing is added. Numbers without a node may be given one at
    any time, so the last three conditions are about live numbers only. -/
structure Grown (touched : Int → Prop) (g g' : Graph) : Prop where
  nodes : g.nodes <+: g'.nodes
  entrypoints : g.entrypoints <+: g'.entrypoints
  sites : ∀ i, g.sitesAt i <+: g'.sitesAt i
  attributes : ∀ {i site d}, g.Attributes i site d → g'.Attributes i site d
  calls : ∀ {i d}, g.Calls i d → g'.Calls i d
  untouched_sites : ∀ {i}, g.Live i → ¬touched i → g'.sitesAt i = g.sitesAt i
  untouched_attributes : ∀ {i site d}, g.Live i → ¬touched i → g'.Attributes i site d →
    g.Attributes i site d
  untouched_calls : ∀ {i d}, g.Live i → ¬touched i → g'.Calls i d → g.Calls i d

theorem Grown.refl (touched : Int → Prop) (g : Graph) : Grown touched g g :=
  ⟨List.prefix_refl _, List.prefix_refl _, fun _ => List.prefix_refl _, id, id, fun _ _ => rfl,
    fun _ _ => id, fun _ _ => id⟩

theorem Grown.contains (h : Grown touched g g') (hg : WellFormed g) (hg' : WellFormed g')
    (hn : g.contains n) : g'.contains n :=
  hg'.contains_iff_mem_nodes.2 (h.nodes.subset (hg.contains_iff_mem_nodes.1 hn))

theorem Grown.live (h : Grown touched g g') (hg : WellFormed g) (hg' : WellFormed g') {i : Int}
    (hi : g.Live i) : g'.Live i := by
  rcases hg.exists_contains hi with ⟨n, hn, rfl⟩
  exact live_of_contains (h.contains hg hg' hn)

/-- There is one root, so the root of a graph was there in the graph that it continues. -/
theorem Grown.contains_of_fakeRoot (h : Grown touched g g') (hg : WellFormed g)
    (hg' : WellFormed g') (hn : g'.contains n) (hroot : n.kind = .fakeRoot) : g.contains n := by
  let root : Node := ⟨g.serial, rootId, .fakeRoot, .everywhere, .fakeRoot⟩
  have hold : g.contains root := contains_iff.2 hg.root
  have hid : n.id = root.id := (hg'.kind_eq_fakeRoot_iff hn).1 hroot
  rw [eq_of_contains hn (h.contains hg hg' hold) hid]
  exact hold

/-- Graphs continue one another if no number that is there is touched only the second
    time. Numbers that were given out in between may be touched freely. -/
theorem Grown.trans {g'' : Graph} {touched' : Int → Prop} (h : Grown touched g g')
    (h' : Grown touched' g' g'') (hg : WellFormed g) (hg' : WellFormed g')
    (hsub : ∀ i, g.Live i → touched' i → touched i) : Grown touched g g'' := by
  -- A number that is not touched the first time is still there and is not touched the second
  -- time.
  have hlive : ∀ {i}, g.Live i → ¬touched i → g'.Live i ∧ ¬touched' i := fun hi ht =>
    ⟨h.live hg hg' hi, fun ht' => ht (hsub _ hi ht')⟩
  refine ⟨h.nodes.trans h'.nodes, h.entrypoints.trans h'.entrypoints,
    fun i => (h.sites i).trans (h'.sites i), fun hat => h'.attributes (h.attributes hat),
    fun hcalls => h'.calls (h.calls hcalls), ?_, ?_, ?_⟩
  · intro i hi ht
    have hnext := hlive hi ht
    exact (h'.untouched_sites hnext.1 hnext.2).trans (h.untouched_sites hi ht)
  · intro i site d hi ht hat
    have hnext := hlive hi ht
    exact h.untouched_attributes hi ht (h'.untouched_attributes hnext.1 hnext.2 hat)
  · intro i d hi ht hcalls
    have hnext := hlive hi ht
    exact h.untouched_calls hi ht (h'.untouched_calls hnext.1 hnext.2 hcalls)

/-- More numbers may be said to be touched than are. -/
theorem Grown.mono {touched' : Int → Prop} (h : Grown touched g g')
    (hsub : ∀ i, g.Live i → touched i → touched' i) : Grown touched' g g' := by
  refine ⟨h.nodes, h.entrypoints, h.sites, h.attributes, h.calls, ?_, ?_, ?_⟩
  · exact fun hi ht => h.untouched_sites hi fun h => ht (hsub _ hi h)
  · exact fun hi ht => h.untouched_attributes hi fun h => ht (hsub _ hi h)
  · exact fun hi ht => h.untouched_calls hi fun h => ht (hsub _ hi h)

/-- A node that is not touched keeps its sites. -/
theorem Grown.callSites_eq (h : Grown touched g g') (hg : WellFormed g) (hg' : WellFormed g')
    (hn : g.contains n) (ht : ¬touched n.id) : g'.callSites n = g.callSites n := by
  rw [Graph.callSites_eq hn, Graph.callSites_eq (h.contains hg hg' hn)]
  exact h.untouched_sites (live_of_contains hn) ht

theorem Grown.contains_of_attributes (h : Grown touched g g') (hg : WellFormed g)
    (hg' : WellFormed g') (hm : g'.contains m) {i : Int} (hat : g.Attributes i site m.id) :
    g.contains m := by
  rcases hg.exists_contains (hg.live_right (hg.calls_of_attributes hat)) with ⟨k, hk, hid⟩
  rw [← eq_of_contains (h.contains hg hg' hk) hm hid]
  exact hk

/-- A node that is not touched keeps its targets. -/
theorem Grown.targets_eq (h : Grown touched g g') (hg : WellFormed g) (hg' : WellFormed g')
    (hn : g.contains n) (ht : ¬touched n.id) (site : CallSite) :
    g'.targets n site = g.targets n site := by
  refine eq_of_ascending (hg'.targets_ascending n site) (hg.targets_ascending n site) fun m => ?_
  rw [hg'.mem_targets, hg.mem_targets]
  constructor
  · rintro ⟨_, hm, hat⟩
    have hold := h.untouched_attributes (live_of_contains hn) ht hat
    exact ⟨hn, h.contains_of_attributes hg hg' hm hold, hold⟩
  · rintro ⟨_, hm, hat⟩
    exact ⟨h.contains hg hg' hn, h.contains hg hg' hm, h.attributes hat⟩

theorem Grown.hasEdge (h : Grown touched g g') (hg : WellFormed g) (hg' : WellFormed g')
    (hedge : g.hasEdge n m) : g'.hasEdge n m := by
  rcases hasEdge_iff.1 hedge with ⟨hn, hm, hcalls⟩
  exact hasEdge_iff.2 ⟨h.contains hg hg' hn, h.contains hg hg' hm, h.calls hcalls⟩

/-- Targets are kept, also at numbers that are touched. -/
theorem Grown.mem_targets (h : Grown touched g g') (hg : WellFormed g) (hg' : WellFormed g')
    (hm : m ∈ g.targets n site) : m ∈ g'.targets n site := by
  rcases hg.mem_targets.1 hm with ⟨hn, hm, hat⟩
  exact hg'.mem_targets.2 ⟨h.contains hg hg' hn, h.contains hg hg' hm, h.attributes hat⟩

theorem Grown.callSites_prefix (h : Grown touched g g') (hg : WellFormed g) (hg' : WellFormed g')
    (hn : g.contains n) : g.callSites n <+: g'.callSites n := by
  rw [Graph.callSites_eq hn, Graph.callSites_eq (h.contains hg hg' hn)]
  exact h.sites n.id

/-- The entrypoints of a graph come first among those of a graph that continues it. -/
theorem Grown.entrypoints_prefix (h : Grown touched g g') (hg : WellFormed g)
    (hg' : WellFormed g') : CallGraph.entrypoints g <+: CallGraph.entrypoints g' := by
  rcases h.entrypoints with ⟨more, hmore⟩
  have hsame : g'.nodesWith g.entrypoints = g.nodesWith g.entrypoints := by
    refine List.filterMap_congr fun i hi => ?_
    rcases hg.exists_contains (hg.entry_live hi) with ⟨n, hn, rfl⟩
    rw [contains_iff.1 hn, contains_iff.1 (h.contains hg hg' hn)]
  have happend : g'.nodesWith (g.entrypoints ++ more) =
      g'.nodesWith g.entrypoints ++ g'.nodesWith more := List.filterMap_append
  change g.nodesWith g.entrypoints <+: g'.nodesWith g'.entrypoints
  rw [← hmore, happend, hsame]
  exact List.prefix_append _ _

/-! ## Changes that continue a graph -/

/-- A new node touches nothing that is there. -/
theorem grown_create (g : Graph) (u : CodeUnit) (c : Context) :
    Grown touched g (g.create u c .ordinary).1 := by
  refine ⟨?_, List.prefix_refl _, ?_, attributes_create.2, calls_create.2, ?_,
    fun _ _ => attributes_create.1, fun _ _ => calls_create.1⟩
  · rw [nodes_create]
    exact List.prefix_append _ _
  · intro i
    rw [sitesAt_create]
  · intro i _ _
    rw [sitesAt_create]

/-- Recording a site touches its node. -/
theorem grown_recordSite (hg : WellFormed g) (hg' : WellFormed (g.recordSite n.id site))
    (hn : g.contains n) (ht : touched n.id) : Grown touched g (g.recordSite n.id site) := by
  have hsites := sitesAt_recordSite hg.toAttributed (live_of_contains hn) site
  have hkeeps := keeps_recordSite g n.id site
  refine ⟨?_, ?_, ?_, attributes_recordSite.2, calls_recordSite.2, ?_,
    fun _ _ => attributes_recordSite.1, fun _ _ => calls_recordSite.1⟩
  · rw [hkeeps.nodes_eq hg hg']
  · rw [hkeeps.entrypoints]
  · intro i
    rw [hsites]
    -- A new site comes last, and a site that is there already is not recorded again.
    split
    · exact List.prefix_append _ _
    · exact List.prefix_refl _
  · intro i _ hi
    have hne : i ≠ n.id := fun h => hi (h ▸ ht)
    rw [hsites, if_neg fun h => hne h.1]

/-- A call registers at most one entrypoint, which comes last. -/
theorem entrypoints_called (g : Graph) (n : Node) (site : CallSite) (m : Node) :
    g.entrypoints <+: (g.called n site m).entrypoints := by
  rw [(keeps_called g n site m).entrypoints]
  split
  · unfold markEntrypoint
    split
    · exact List.prefix_refl _
    · exact List.prefix_append _ _
  · exact List.prefix_refl _

theorem nodes_called (hg : WellFormed g) (hg' : WellFormed (g.called n site m)) :
    (g.called n site m).nodes = g.nodes := by
  refine eq_of_ascending hg'.nodes_ascending hg.nodes_ascending fun k => ?_
  rw [← hg'.contains_iff_mem_nodes, ← hg.contains_iff_mem_nodes, contains_called]

/-- A call touches its caller, and no other node. In particular its callee is not
    touched, and so a node may be called at any time after it was read. -/
theorem grown_called (hg : WellFormed g) (hg' : WellFormed (g.called n site m))
    (hn : g.contains n) (hm : g.contains m) (ht : touched n.id) :
    Grown touched g (g.called n site m) := by
  have hsites : ∀ i, (g.called n site m).sitesAt i =
      if i = n.id ∧ site ∉ g.sitesAt n.id then g.sitesAt i ++ [site] else g.sitesAt i :=
    sitesAt_called hg hn hm
  -- What may not be touched is not the caller.
  have hne : ∀ {i}, ¬touched i → i ≠ n.id := fun hi h => hi (h ▸ ht)
  refine ⟨?_, entrypoints_called g n site m, ?_, fun h => (attributes_called hn).2 (Or.inl h),
    fun h => (calls_called hn).2 (Or.inl h), ?_, ?_, ?_⟩
  · rw [nodes_called hg hg']
  · intro i
    rw [hsites]
    split
    · exact List.prefix_append _ _
    · exact List.prefix_refl _
  · intro i _ hi
    rw [hsites, if_neg fun h => hne hi h.1]
  · intro i s d _ hi hat
    exact ((attributes_called hn).1 hat).resolve_right fun h => hne hi h.1
  · intro i d _ hi hcalls
    exact ((calls_called hn).1 hcalls).resolve_right fun h => hne hi h.1

end Graph

/-! ## States that continue others -/

namespace Closure

open CallAtlas.Graph (rootId clinitId Grown)
open Relation (ReflTransGen)

variable {σ : Type} {h : Hierarchy σ} {n : Node} {c c' : Closure Unit} {touched : Int → Prop}

/-- Nodes wait without code, are being read, or were read. The node `busy` is being
    read. In contrast to `Underway`, this needs no answers that stay the same: the
    hierarchy may answer the same question differently each time. -/
structure Orderly (h : Hierarchy σ) (busy : Option Node) (c : Closure Unit) : Prop where
  obtainable : c.graph.Obtainable
  thawed : c.graph.frozen = false
  everywhere : ∀ {n}, c.graph.contains n → n.context = .everywhere
  mentioned : ∀ {n}, c.graph.contains n → n.kind = .ordinary → h.Mentions n.unit
  busy_node : ∀ {n}, busy = some n →
    c.graph.contains n ∧ n.kind ≠ .fakeWorldClinit ∧ n ∉ c.worklist
  worklist_nodup : c.worklist.Nodup
  waiting : ∀ {n}, n ∈ c.worklist → c.graph.contains n ∧ n.kind ≠ .fakeWorldClinit
  unread : ∀ {n}, n ∈ c.worklist → n.kind = .ordinary → c.graph.sitesAt n.id = []
  silent : ∀ {n d}, n ∈ c.worklist → ¬c.graph.Calls n.id d
  balance : c.graph.live = c.worklist.length + c.pops + 1

/-- One state continues another, and whatever waits in the second and not in the first is new. -/
structure Later (touched : Int → Prop) (c c' : Closure Unit) : Prop
    extends Grown touched c.graph c'.graph where
  worklist : ∀ {n}, n ∈ c'.worklist → n ∈ c.worklist ∨ ¬c.graph.Live n.id

/-- The numbers that are written to while a node is being read. -/
def Touches (n : Node) (i : Int) : Prop := i = n.id ∨ i = clinitId

/-- Part of the reading of a node. -/
structure Proceeds (h : Hierarchy σ) (n : Node) (c c' : Closure Unit) : Prop where
  orderly : Orderly h (some n) c'
  later : Later (Touches n) c c'
  pops : c'.pops = c.pops

/-- The numbers of a state that may still be written to. -/
def Open (c : Closure Unit) (i : Int) : Prop := (∃ n ∈ c.worklist, n.id = i) ∨ i = clinitId

theorem Orderly.wellFormed {busy : Option Node} (hc : Orderly h busy c) : c.graph.WellFormed :=
  hc.obtainable.wellFormed

/-- What waits was waiting or is new, and so it is after several steps. -/
theorem Later.trans {c'' : Closure Unit} {touched' : Int → Prop} (h₁ : Later touched c c')
    (h₂ : Later touched' c' c'') (hc : c.graph.WellFormed) (hc' : c'.graph.WellFormed)
    (hsub : ∀ i, c.graph.Live i → touched' i → touched i) : Later touched c c'' := by
  refine ⟨h₁.toGrown.trans h₂.toGrown hc hc' hsub, fun hn => ?_⟩
  rcases h₂.worklist hn with hn | hnew
  · exact h₁.worklist hn
  · exact Or.inr fun hlive => hnew (h₁.live hc hc' hlive)

theorem Proceeds.trans {c'' : Closure Unit} (hc : c.graph.WellFormed) (h₁ : Proceeds h n c c')
    (h₂ : Proceeds h n c' c'') : Proceeds h n c c'' :=
  ⟨h₂.orderly, h₁.later.trans h₂.later hc h₁.orderly.wellFormed fun _ _ ht => ht,
    h₂.pops.trans h₁.pops⟩

/-- What is open later and was there before was open before. A node that was taken off
    the worklist is never put back. -/
theorem Later.open_of_open (h₁ : Later touched c c') {i : Int} (hi : c.graph.Live i)
    (hopen : Open c' i) : Open c i := by
  rcases hopen with ⟨n, hn, rfl⟩ | hclinit
  · exact Or.inl ⟨n, (h₁.worklist hn).resolve_right (not_not_intro hi), rfl⟩
  · exact Or.inr hclinit

namespace Orderly

theorem busy_id (hc : Orderly h (some n) c) : n.id ≠ clinitId := by
  rcases hc.busy_node rfl with ⟨hn, hk, _⟩
  exact fun h => hk ((hc.wellFormed.kind_eq_fakeWorldClinit_iff hn).2 h)

/-- A node that waits is neither being read nor the fake world-clinit node. -/
theorem not_touches (hc : Orderly h (some n) c) {m : Node} (hm : m ∈ c.worklist) :
    ¬Touches n m.id := by
  rcases hc.busy_node rfl with ⟨hn, _, hfree⟩
  rcases hc.waiting hm with ⟨hin, hkind⟩
  intro ht
  rcases ht with hid | hid
  · rw [Graph.eq_of_contains hin hn hid] at hm
    exact hfree hm
  · exact hkind ((hc.wellFormed.kind_eq_fakeWorldClinit_iff hin).2 hid)

/-- A change that adds no node and writes only where it may. Nodes that wait are not
    touched, so they are still without code. -/
theorem edit (hc : Orderly h (some n) c) {g : Graph} (hob : g.Obtainable) (hthawed : g.frozen = false)
    (hsame : ∀ {k}, g.contains k ↔ c.graph.contains k) (hlive : g.live = c.graph.live)
    (hgrown : Grown (Touches n) c.graph g) : Proceeds h n c { c with graph := g } := by
  refine ⟨⟨hob, hthawed, fun hk => hc.everywhere (hsame.1 hk),
    fun hk => hc.mentioned (hsame.1 hk), ?_, hc.worklist_nodup, ?_, ?_, ?_,
    hlive.trans hc.balance⟩, ⟨hgrown, Or.inl⟩, rfl⟩
  · intro k hk
    rcases hc.busy_node hk with ⟨hin, hkind⟩
    exact ⟨hsame.2 hin, hkind⟩
  · intro k hk
    rcases hc.waiting hk with ⟨hin, hkind⟩
    exact ⟨hsame.2 hin, hkind⟩
  · -- The node waits, and so it is neither the one that is being read nor the fake world-clinit
    -- node.
    intro k hk hord
    refine (hgrown.untouched_sites ?_ (hc.not_touches hk)).trans (hc.unread hk hord)
    exact Graph.live_of_contains (hc.waiting hk).1
  · intro k d hk hcalls
    refine hc.silent hk (hgrown.untouched_calls ?_ (hc.not_touches hk) hcalls)
    exact Graph.live_of_contains (hc.waiting hk).1

/-- The node being read records a site. -/
theorem record (hc : Orderly h (some n) c) (site : CallSite) :
    Proceeds h n c { c with graph := c.graph.recordSite n.id site } := by
  have hn := (hc.busy_node rfl).1
  have hob := hc.obtainable.recordSite hc.thawed (Graph.live_of_contains hn) site
  have hkeeps := Graph.keeps_recordSite c.graph n.id site
  exact hc.edit hob (hkeeps.frozen.trans hc.thawed) hkeeps.contains_iff hkeeps.live
    (Graph.grown_recordSite hc.wellFormed hob.wellFormed hn (Or.inl rfl))

/-- The node being read or the fake world-clinit node calls. -/
theorem call (hc : Orderly h (some n) c) {k m : Node} (site : CallSite) (hk : c.graph.contains k)
    (htouch : Touches n k.id) (hm : c.graph.contains m) :
    Proceeds h n c { c with graph := c.graph.called k site m } := by
  have hob := hc.obtainable.called hc.thawed hk hm site
  exact hc.edit hob (Graph.frozen_called.trans hc.thawed) Graph.contains_called Graph.live_called
    (Graph.grown_called hc.wellFormed hob.wellFormed hk hm htouch)

/-- A new node waits in front of all others. It has a number that no node had, so it is
    not among those that wait already, it has no sites and no callees, and it is not the
    node that is being read. There is one more node and one more that waits, which keeps
    the balance. -/
theorem newNode (hc : Orderly h (some n) c) {u : CodeUnit}
    (hnew : c.graph.lookup u .everywhere = none) (hu : h.Mentions u) :
    Proceeds h n c (c.newNode u).2 := by
  have hold : ∀ {k}, c.graph.contains k → (c.newNode u).2.graph.contains k := fun hk =>
    Graph.contains_create.2 (Or.inl hk)
  have hmade : (c.newNode u).2.graph.contains (c.newNode u).1 := Graph.contains_create.2 (Or.inr rfl)
  have hfresh : ¬c.graph.contains (c.newNode u).1 :=
    Graph.not_contains_create c.graph u .everywhere .ordinary
  have hcases : ∀ {k}, (c.newNode u).2.graph.contains k →
      c.graph.contains k ∨ k = (c.newNode u).1 := Graph.contains_create.1
  refine ⟨⟨hc.obtainable.create hc.thawed hnew, hc.thawed, ?_, ?_, ?_, ?_, ?_, ?_, ?_, ?_⟩,
    ⟨Graph.grown_create c.graph u .everywhere, ?_⟩, rfl⟩
  · intro k hk
    rcases hcases hk with hk | rfl
    · exact hc.everywhere hk
    · rfl
  · intro k hk hord
    rcases hcases hk with hk | rfl
    · exact hc.mentioned hk hord
    · exact hu
  · -- The new node waits, and the one that is being read was there before.
    intro k hk
    rcases hc.busy_node hk with ⟨hin, hkind, hfree⟩
    refine ⟨hold hin, hkind, fun hmem => ?_⟩
    rcases List.mem_cons.1 hmem with rfl | hmem
    · exact hfresh hin
    · exact hfree hmem
  · exact List.nodup_cons.2 ⟨fun hmem => hfresh (hc.waiting hmem).1, hc.worklist_nodup⟩
  · intro k hk
    rcases List.mem_cons.1 hk with rfl | hk
    · exact ⟨hmade, by simp⟩
    · exact ⟨hold (hc.waiting hk).1, (hc.waiting hk).2⟩
  · intro k hk hord
    refine (Graph.sitesAt_create _ _ _ _ _).trans ?_
    rcases List.mem_cons.1 hk with rfl | hk
    · exact Graph.sitesAt_size c.graph
    · exact hc.unread hk hord
  · intro k d hk hcalls
    -- A new number has no slot to store a call in.
    have hcalls' := Graph.calls_create.1 hcalls
    rcases List.mem_cons.1 hk with rfl | hk
    · exact Graph.not_live_size c.graph hcalls'.live_left
    · exact hc.silent hk hcalls'
  · have hb := hc.balance
    change c.graph.live + 1 = ((_ :: c.worklist).length : Int) + c.pops + 1
    rw [List.length_cons]
    omega
  · intro k hk
    rcases List.mem_cons.1 hk with rfl | hk
    · exact Or.inr (Graph.not_live_size c.graph)
    · exact Or.inl hk

theorem refl (hc : Orderly h (some n) c) : Proceeds h n c c :=
  ⟨hc, ⟨Grown.refl _ _, Or.inl⟩, rfl⟩

/-- The initializer of a class is called by the fake world-clinit node, whichever node
    is being read. -/
theorem linkInitializer (hc : Orderly h (some n) c) {i : CodeUnit} (hi : h.Mentions i) :
    Proceeds h n c (c.linkInitializer i) := by
  cases hl : c.graph.lookup i .everywhere with
  | some m =>
      rw [linkInitializer_of_some hl]
      exact hc.refl
  | none =>
      rw [linkInitializer_of_none hl]
      have hmade := hc.newNode hl hi
      have hclinit : (c.newNode i).2.graph.contains c.clinitNode :=
        Graph.contains_iff.2 hmade.orderly.wellFormed.clinit
      have hcalled := hmade.orderly.call { pc := c.initializers, target := i.ref, kind := .static }
        hclinit (Or.inr rfl) (Graph.contains_create.2 (Or.inr rfl))
      have hboth := hmade.trans hc.wellFormed hcalled
      -- The order says nothing about how many initializers there are.
      exact ⟨{ hboth.orderly with }, ⟨hboth.later.toGrown, hboth.later.worklist⟩, hboth.pops⟩

/-- A node that is found or made is there afterwards. -/
theorem found (hc : Orderly h (some n) c) {m : Node} (hfound : Found h c m c') :
    Proceeds h n c c' ∧ c'.graph.contains m := by
  cases hfound with
  | known hl hu =>
      exact ⟨hc.refl, Graph.contains_iff.2 (hc.wellFormed.lookup_eq_some_iff.1 hl).1⟩
  | alone w hl hu hi => exact ⟨hc.newNode hl hu, Graph.contains_create.2 (Or.inr rfl)⟩
  | initialized w hl hu hi =>
      have hmade := hc.newNode hl hu
      have hinit := hmade.orderly.linkInitializer (.initializer w hi)
      refine ⟨hmade.trans hc.wellFormed hinit, ?_⟩
      exact hinit.later.contains hmade.orderly.wellFormed hinit.orderly.wellFormed
        (Graph.contains_create.2 (Or.inr rfl))

/-- The node that is found is the node of an answer. It may be one of the two roots, if
    the hierarchy answers with their units. -/
theorem mentions_found (hc : Orderly h (some n) c) {m : Node} (hfound : Found h c m c') :
    h.Mentions m.unit := by
  cases hfound with
  | known hl hu =>
      rw [(hc.wellFormed.lookup_eq_some_iff.1 hl).2.1]
      exact hu
  | alone w hl hu hi => exact hu
  | initialized w hl hu hi => exact hu

/-- A move keeps the order. This is the only place where the moves are gone through, and
    runs are chains of moves. -/
theorem move (hc : Orderly h (some n) c) (hmove : Move h n c c') : Proceeds h n c c' := by
  cases hmove with
  | record site => exact hc.record site
  | call site hfound =>
      rcases hc.found hfound with ⟨hproc, hm⟩
      have hn := (hproc.orderly.busy_node rfl).1
      exact hproc.trans hc.wellFormed (hproc.orderly.call site hn (Or.inl rfl) hm)

theorem moves (hc : Orderly h (some n) c) (hmoves : ReflTransGen (Move h n) c c') :
    Proceeds h n c c' := by
  induction hmoves with
  | refl => exact hc.refl
  | tail _ hmove ih => exact ih.trans hc.wellFormed (ih.orderly.move hmove)

/-- A node is taken off the worklist and is being read. -/
theorem take {rest : List Node} (hc : Orderly h none c) (hw : c.worklist = n :: rest) :
    Orderly h (some n) { c with worklist := rest, pops := c.pops + 1 } := by
  have hmem : ∀ {k}, k ∈ rest → k ∈ c.worklist := fun hk => hw ▸ List.mem_cons_of_mem n hk
  have hnodup := hc.worklist_nodup
  rw [hw, List.nodup_cons] at hnodup
  rcases hc.waiting (show n ∈ c.worklist by rw [hw]; exact List.mem_cons_self) with ⟨hn, hk⟩
  refine ⟨hc.obtainable, hc.thawed, hc.everywhere, hc.mentioned, ?_, hnodup.2,
    fun hk => hc.waiting (hmem hk), fun hk => hc.unread (hmem hk), fun hk => hc.silent (hmem hk), ?_⟩
  · intro k hk'
    rw [Option.some.injEq] at hk'
    rw [← hk']
    exact ⟨hn, hk, hnodup.1⟩
  · -- One node less waits and one more was taken off.
    have hb := hc.balance
    rw [hw, List.length_cons] at hb
    push_cast at hb ⊢
    omega

/-- Reading a node keeps the order. Only what was open is written to, and the node that
    was read does not wait again. -/
theorem step {c : Closure σ} {rest : List Node} (hc : Orderly h none c.bare) (hcached : Cached h c)
    (hw : c.worklist = n :: rest) (only : Bool) :
    Orderly h none (step h only { c with worklist := rest } n).bare ∧
      Cached h (Closure.step h only { c with worklist := rest } n) ∧
      Later (Open c.bare) c.bare (Closure.step h only { c with worklist := rest } n).bare ∧
      (Closure.step h only { c with worklist := rest } n).pops = c.pops + 1 ∧
      n ∉ (Closure.step h only { c with worklist := rest } n).worklist := by
  have hrest : Cached h { c with worklist := rest } := hcached.congr rfl rfl
  rcases moves_step hrest only n with ⟨hmoves, hcached'⟩
  have hproc := (hc.take hw).moves hmoves
  have hdone := hproc.orderly
  -- What was written to is the node, which waited before, and the fake world-clinit node.
  refine ⟨{ hdone with busy_node := by simp }, hcached', ⟨?_, ?_⟩, hproc.pops,
    (hdone.busy_node rfl).2.2⟩
  · refine Grown.mono hproc.later.toGrown fun i _ ht => ?_
    rcases ht with rfl | hclinit
    · refine Or.inl ⟨n, ?_, rfl⟩
      change n ∈ c.worklist
      rw [hw]
      exact List.mem_cons_self
    · exact Or.inr hclinit
  · intro k hk
    refine (hproc.later.worklist hk).imp_left fun hk => ?_
    change k ∈ c.worklist
    rw [hw]
    exact List.mem_cons_of_mem n hk

end Orderly

/-! ## What is called -/

/-- What is called are answers of the hierarchy. The closure calls a node only as the
    node of a unit that it was given, so the two synthetic nodes are called exactly if
    someone answers with their units. Those who make function objects are free to do so. -/
def CallsAnswers (h : Hierarchy σ) (g : Graph) : Prop :=
  ∀ (i : Int) (m : Node), g.contains m → g.Calls i m.id → h.Mentions m.unit

namespace CallsAnswers

variable {g : Graph} {m : Node}

/-- A new node is not called yet. Its unit is asked for all the same, since from now on
    an edge may lead to it. -/
theorem create (hcalls : CallsAnswers h g) {u : CodeUnit} (hu : h.Mentions u) :
    CallsAnswers h (g.create u .everywhere .ordinary).1 := by
  intro i k hk hcall
  rcases Graph.contains_create.1 hk with hk | rfl
  · exact hcalls i k hk (Graph.calls_create.1 hcall)
  · exact hu

/-- A callee whose unit is an answer may be called. -/
theorem called (hcalls : CallsAnswers h g) (hn : g.contains n) (hm : g.contains m)
    (hu : h.Mentions m.unit) (site : CallSite) : CallsAnswers h (g.called n site m) := by
  intro i k hk hcall
  have hk := Graph.contains_called.1 hk
  rcases (Graph.calls_called hn).1 hcall with hcall | ⟨_, hid⟩
  · exact hcalls i k hk hcall
  · rw [Graph.eq_of_contains hk hm hid]
    exact hu

/-- The initializer of a class is an answer and is called. -/
theorem linkInitializer (hcalls : CallsAnswers h c.graph) (hc : Orderly h (some n) c)
    {i : CodeUnit} (hi : h.Mentions i) : CallsAnswers h (c.linkInitializer i).graph := by
  cases hl : c.graph.lookup i .everywhere with
  | some m =>
      rw [linkInitializer_of_some hl]
      exact hcalls
  | none =>
      have hmade := (hc.newNode hl hi).orderly
      have hclinit : (c.newNode i).2.graph.contains c.clinitNode :=
        Graph.contains_iff.2 hmade.wellFormed.clinit
      rw [linkInitializer_of_none hl]
      exact (hcalls.create hi).called hclinit (Graph.contains_create.2 (Or.inr rfl)) hi _

theorem found (hcalls : CallsAnswers h c.graph) (hc : Orderly h (some n) c)
    (hfound : Found h c m c') : CallsAnswers h c'.graph := by
  cases hfound with
  | known hl hu => exact hcalls
  | alone w hl hu hi => exact hcalls.create hu
  | initialized w hl hu hi =>
      have hmade : CallsAnswers h (c.newNode _).2.graph := hcalls.create hu
      exact hmade.linkInitializer (hc.newNode hl hu).orderly (.initializer w hi)

/-- A move calls answers only. Which node is found is an answer, and so is every
    initializer that comes with it. -/
theorem move (hcalls : CallsAnswers h c.graph) (hc : Orderly h (some n) c)
    (hmove : Move h n c c') : CallsAnswers h c'.graph := by
  cases hmove with
  | record site =>
      intro i m hm hcall
      exact hcalls i m ((Graph.keeps_recordSite c.graph n.id site).contains_iff.1 hm)
        (Graph.calls_recordSite.1 hcall)
  | call site hfound =>
      rcases hc.found hfound with ⟨hproc, hm⟩
      exact (hcalls.found hc hfound).called (hproc.orderly.busy_node rfl).1 hm
        (hc.mentions_found hfound) site

/-- A node whose unit is no answer is not called. For the roots this means that no one
    makes function objects of their units. -/
theorem preds_eq_nil (hcalls : CallsAnswers h g) (hg : g.WellFormed) (hreal : ¬h.Mentions m.unit) :
    g.preds m = [] := by
  rw [List.eq_nil_iff_forall_not_mem]
  intro k hk
  rcases hg.mem_preds.1 hk with ⟨_, hm, hcall⟩
  exact hreal (hcalls k.id m hm hcall)

end CallsAnswers

end Closure

end CallAtlas
