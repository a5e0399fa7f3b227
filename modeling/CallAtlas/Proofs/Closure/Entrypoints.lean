import CallAtlas.Proofs.Closure.Ledger
import CallAtlas.Proofs.Closure.Numbering

/-!
# The Entrypoints of a Closure

The entrypoints of a program are told three times in its graph: they are the sites of the
fake root, the callees of the fake root, and the list of entrypoints itself. The closure
writes the sites down before it runs and the other two while it reads the root, through the
same step by which it links any call. This module says that the three agree, and what each
of them is.

Every run that looks once passes the state in which the root has been read and nothing else
has. While the root is read, all that the graph says about it is a function of one list, the
roll of its sites with the node that each of them came to, if it came to any. A site puts one
entry behind the roll. So in the end the roll follows the list of entrypoints, one that names
nothing relevant included, and the entrypoints of the graph are the nodes on the roll with
repetitions dropped.

What comes after cannot change this. The root is read once, so its sites and targets stay.
An entrypoint is only registered together with a call from the root, and such calls no longer
come. An entrypoint may well be called again or be the initializer of a class, but that is
written down elsewhere.

Nothing calls the root, unless its unit is an answer. It would be found as the node of that
answer, and called. A hierarchy does not answer so, but whoever makes function objects may.

## Main definitions

* `Answers.entrySite`: The site of the root for an entrypoint.
* `Closure.wanted`, `Graph.entryNode`: The unit that an entrypoint brings into the graph, and its
  node.
* `Graph.Registered`: A roll says all about the root.
* `Graph.Enlarged`: One graph continues another, apart from the root.
* `Graph.EntryCalls`: The entrypoints are what the root calls.
* `Closure.Entering`: The root is being read.
* `Closure.entered`: The closure when the root was read.

## Theorems

* `Graph.Registered.skip`, `Graph.Registered.enter`: An entrypoint is put on the roll.
* `Closure.enlarged_found`: Finding a node writes to the fake world-clinit node only.
* `Closure.Entering.visitSite`, `Closure.Entering.visitSites`: The root is read.
* `Closure.entryCalls_move`: Entrypoints are registered together with calls from the root.
* `Closure.registered_advance`: The roll stays as it is.
* `Closure.root_and_entrypoints_agree`: The fake root after any run that looked once.
* `Closure.wrapper_calls_root`: An answer that calls the root.
-/

namespace CallAtlas

/-! ## The roll of the root -/

namespace Answers

/-- The site of the root for the entrypoint at a place of the list. -/
def entrySite (e : CodeUnit) (i : Nat) : CallSite := { pc := i, target := e.ref, kind := .special }

theorem entrySites_append (done rest : List CodeUnit) : entrySites (done ++ rest) =
    entrySites done ++ (rest.zipIdx done.length).map fun (e, i) => entrySite e i := by
  rw [entrySites, List.zipIdx_append, List.map_append, Nat.zero_add]
  rfl

end Answers

namespace Graph

open Answers (entrySite entrySites)

variable {want : CodeUnit → Option CodeUnit} {done : List CodeUnit} {e : CodeUnit}
  {roll : List (CallSite × Option Node)} {g g' : Graph} {n m : Node}

/-- The root has a site for each entrypoint so far, attributed to the node of the unit
    that the entrypoint brings in, if it brings one in. These nodes are the entrypoints
    of the graph. The roll has one place for each entrypoint, so two that bring in the
    same unit share their node and not their place. -/
structure Registered (want : CodeUnit → Option CodeUnit) (done : List CodeUnit)
    (roll : List (CallSite × Option Node)) (g : Graph) : Prop where
  sites : roll.map Prod.fst = entrySites done
  units : roll.map (fun r => r.2.map Node.unit) = done.map want
  contains : ∀ {site m}, (site, some m) ∈ roll → g.contains m
  entrypoints : g.entrypoints = (roll.filterMap Prod.snd).eraseDups.map Node.id
  attributes : ∀ {site d}, g.Attributes rootId site d ↔ ∃ m, (site, some m) ∈ roll ∧ m.id = d

/-- A change that leaves the entrypoints and the targets of the root alone keeps the roll. -/
theorem Registered.edit (h : Registered want done roll g)
    (hkept : ∀ {k}, g.contains k → g'.contains k) (hentry : g'.entrypoints = g.entrypoints)
    (hattributes : ∀ {site d}, g'.Attributes rootId site d ↔ g.Attributes rootId site d) :
    Registered want done roll g' :=
  ⟨h.sites, h.units, fun hm => hkept (h.contains hm), hentry.trans h.entrypoints,
    hattributes.trans h.attributes⟩

theorem Registered.sites_concat (h : Registered want done roll g) (e : CodeUnit) (o : Option Node) :
    (roll ++ [(entrySite e done.length, o)]).map Prod.fst = entrySites (done ++ [e]) := by
  rw [List.map_append, h.sites, Answers.entrySites_append]
  rfl

theorem Registered.units_concat (h : Registered want done roll g) (site : CallSite)
    {o : Option Node} (ho : want e = o.map Node.unit) :
    (roll ++ [(site, o)]).map (fun r => r.2.map Node.unit) = (done ++ [e]).map want := by
  rw [List.map_append, List.map_append, h.units, List.map_singleton, List.map_singleton, ho]

/-- An entrypoint that brings nothing in takes its place on the roll, without a node. -/
theorem Registered.skip (h : Registered want done roll g) (he : want e = none) :
    Registered want (done ++ [e]) (roll ++ [(entrySite e done.length, none)]) g := by
  have hmem : ∀ {site m}, (site, some m) ∈ roll ++ [(entrySite e done.length, none)] ↔
      (site, some m) ∈ roll := by simp
  refine ⟨h.sites_concat e none, h.units_concat _ he, fun hm => h.contains (hmem.1 hm), ?_, ?_⟩
  · rw [List.filterMap_append, List.filterMap_cons_none rfl, List.filterMap_nil, List.append_nil]
    exact h.entrypoints
  · intro site d
    simp only [hmem]
    exact h.attributes

/-- An entrypoint that brings a node in. The root calls the node, which makes it an
    entrypoint of the graph unless it is one. Both the roll and the graph keep the first
    mention only. -/
theorem Registered.enter (h : Registered want done roll g) (hg : WellFormed g) (hn : g.contains n)
    (hroot : n.id = rootId) (hm : g.contains m) (he : want e = some m.unit) :
    Registered want (done ++ [e]) (roll ++ [(entrySite e done.length, some m)])
      (g.called n (entrySite e done.length) m) := by
  have hmem : ∀ {site k}, (site, some k) ∈ roll ++ [(entrySite e done.length, some m)] ↔
      (site, some k) ∈ roll ∨ (site = entrySite e done.length ∧ k = m) := by simp
  -- A node is registered if its number is.
  have hold : m.id ∈ g.entrypoints ↔ m ∈ (roll.filterMap Prod.snd).eraseDups := by
    rw [h.entrypoints, List.mem_map]
    constructor
    · rintro ⟨k, hk, hid⟩
      rcases List.mem_filterMap.1 (List.mem_eraseDups.1 hk) with ⟨⟨site, o⟩, hr, rfl⟩
      rw [← eq_of_contains (h.contains hr) hm hid]
      exact hk
    · exact fun hmem => ⟨m, hmem, rfl⟩
  refine ⟨h.sites_concat e _, h.units_concat _ he, ?_, ?_, ?_⟩
  · intro site k hk
    rcases hmem.1 hk with hk | ⟨_, rfl⟩
    · exact contains_called.2 (h.contains hk)
    · exact contains_called.2 hm
  · have hlast : [(entrySite e done.length, some m)].filterMap Prod.snd = [m] := rfl
    rw [(keeps_called g n _ m).entrypoints, if_pos hroot, List.filterMap_append, hlast,
      eraseDups_concat]
    by_cases hin : m.id ∈ g.entrypoints
    · rw [if_pos (hold.1 hin), markEntrypoint, if_pos (hg.mem_entrySet.2 hin)]
      exact h.entrypoints
    · rw [if_neg fun h => hin (hold.2 h), entrypoints_markEntrypoint hg.toEntered hin,
        List.map_append, ← h.entrypoints]
      rfl
  · intro site d
    rw [attributes_called hn, h.attributes, hroot]
    constructor
    · rintro (⟨k, hk, hid⟩ | ⟨_, rfl, rfl⟩)
      · exact ⟨k, hmem.2 (Or.inl hk), hid⟩
      · exact ⟨m, hmem.2 (Or.inr ⟨rfl, rfl⟩), rfl⟩
    · rintro ⟨k, hk, rfl⟩
      rcases hmem.1 hk with hk | ⟨rfl, rfl⟩
      · exact Or.inl ⟨k, hk, rfl⟩
      · exact Or.inr ⟨rfl, rfl, rfl⟩

/-! ## What a roll says of the graph -/

/-- The node of the unit that an entrypoint brings in. -/
def entryNode (want : CodeUnit → Option CodeUnit) (g : Graph) (e : CodeUnit) : Option Node :=
  (want e).bind fun u => g.lookup u .everywhere

/-- The roll has the nodes of the entrypoints, in their order. It says which node
    belongs to an entrypoint, and looking up the unit finds the same one since a unit
    has one node. -/
theorem Registered.map_entryNode (h : Registered want done roll g) (hg : WellFormed g)
    (heverywhere : ∀ {k}, g.contains k → k.context = .everywhere) :
    done.map (entryNode want g) = roll.map Prod.snd := by
  have hbind : ∀ l : List CodeUnit, l.map (entryNode want g) =
      (l.map want).map fun o => o.bind fun u => g.lookup u .everywhere := fun l => by
    rw [List.map_map]
    rfl
  rw [hbind, ← h.units, List.map_map]
  refine List.map_congr_left ?_
  rintro ⟨site, o⟩ hr
  cases o with
  | none => rfl
  | some m => exact hg.lookup_of_everywhere heverywhere (h.contains hr)

/-- The place of an entrypoint on the roll, with its site and its node. -/
theorem Registered.getElem?_eq (h : Registered want done roll g) (hg : WellFormed g)
    (heverywhere : ∀ {k}, g.contains k → k.context = .everywhere) {i : Nat}
    (he : done[i]? = some e) : roll[i]? = some (entrySite e i, entryNode want g e) ∧
      (entryNode want g e).map Node.unit = want e := by
  have hsite := congrArg (fun l => l[i]?) h.sites
  have hnode := congrArg (fun l => l[i]?) (h.map_entryNode hg heverywhere)
  have hunit := congrArg (fun l => l[i]?) h.units
  simp only [entrySites, List.getElem?_map, List.getElem?_zipIdx, he, Option.map_some, Nat.zero_add]
    at hsite hnode hunit
  rcases Option.map_eq_some_iff.1 hsite with ⟨r, hr, hfst⟩
  rw [hr, Option.map_some, Option.some.injEq] at hnode hunit
  refine ⟨?_, ?_⟩
  · rw [hr, hnode, ← show r.1 = entrySite e i from hfst]
  · rw [hnode]
    exact hunit

/-- A site on the roll has the target that stands beside it, and no other. -/
theorem Registered.targets_eq (h : Registered want done roll g) (hg : WellFormed g)
    (hn : g.contains n) (hroot : n.id = rootId) {site : CallSite} {o : Option Node}
    (hr : (site, o) ∈ roll) : g.targets n site = o.toList := by
  have hsorted : o.toList.Pairwise fun a b : Node => a.id < b.id := by cases o <;> simp
  refine eq_of_ascending (hg.targets_ascending n site) hsorted fun k => ?_
  rw [hg.mem_targets, hroot, h.attributes, Option.mem_toList]
  constructor
  · rintro ⟨_, hk, m, hm, hid⟩
    obtain rfl : m = k := eq_of_contains (h.contains hm) hk hid
    -- A site stands on the roll once.
    have honce : (roll.map Prod.fst).Nodup := by
      rw [h.sites]
      exact Answers.entrySites_nodup done
    exact congrArg Prod.snd (List.inj_on_of_nodup_map honce hr hm rfl)
  · rintro rfl
    exact ⟨hn, h.contains hr, k, hr, rfl⟩

/-- The entrypoints of the graph are the nodes on the roll, each at its first mention. -/
theorem Registered.entrypoints_eq (h : Registered want done roll g) :
    CallGraph.entrypoints g = (roll.filterMap Prod.snd).eraseDups := by
  change g.nodesWith g.entrypoints = _
  rw [h.entrypoints, nodesWith, List.filterMap_map]
  refine (List.filterMap_congr fun k hk => ?_).trans List.filterMap_some
  rcases List.mem_filterMap.1 (List.mem_eraseDups.1 hk) with ⟨⟨site, o⟩, hr, rfl⟩
  exact contains_iff.1 (h.contains hr)

/-! ## Finding a node -/

/-- One graph continues another without a new entrypoint. Only the fake world-clinit
    node is written to, and only new nodes are called. -/
structure Enlarged (g g' : Graph) : Prop extends Grown (fun i => i = clinitId) g g' where
  entrypoints_eq : g'.entrypoints = g.entrypoints
  calls_new : ∀ {i d}, g.Live d → g'.Calls i d → g.Calls i d

theorem Enlarged.refl (g : Graph) : Enlarged g g := ⟨Grown.refl _ g, rfl, fun _ => id⟩

theorem Enlarged.trans {g'' : Graph} (h : Enlarged g g') (h' : Enlarged g' g'') (hg : WellFormed g)
    (hg' : WellFormed g') : Enlarged g g'' :=
  ⟨h.toGrown.trans h'.toGrown hg hg' fun _ _ ht => ht, h'.entrypoints_eq.trans h.entrypoints_eq,
    fun hd hcalls => h.calls_new hd (h'.calls_new (h.live hg hg' hd) hcalls)⟩

theorem enlarged_create (g : Graph) (u : CodeUnit) :
    Enlarged g (g.create u .everywhere .ordinary).1 :=
  ⟨grown_create g u .everywhere, rfl, fun _ => calls_create.1⟩

theorem WellFormed.live_root (hg : WellFormed g) : g.Live rootId := by
  rw [live_iff_node?, hg.root]
  rfl

/-- The roll stays as it is in a graph that continues another without writing to the root. -/
theorem Registered.grow {touched : Int → Prop} (h : Registered want done roll g) (hg : WellFormed g)
    (hg' : WellFormed g') (hgrown : Grown touched g g') (hfree : ¬touched rootId)
    (hentry : g'.entrypoints = g.entrypoints) : Registered want done roll g' :=
  h.edit (hgrown.contains hg hg') hentry
    ⟨hgrown.untouched_attributes hg.live_root hfree, hgrown.attributes⟩

/-- The entrypoints of a graph are what its root calls. -/
def EntryCalls (g : Graph) : Prop := ∀ d, d ∈ g.entrypoints ↔ g.Calls rootId d

/-- There is no new entrypoint without a new call from the root. Entrypoints come behind
    those that are there and are never registered twice, so their list cannot grow
    without a new member. -/
theorem EntryCalls.entrypoints_eq {touched : Int → Prop} (h : EntryCalls g) (h' : EntryCalls g')
    (hg : WellFormed g) (hg' : WellFormed g') (hgrown : Grown touched g g')
    (hfree : ¬touched rootId) : g'.entrypoints = g.entrypoints := by
  have hsub : g'.entrypoints ⊆ g.entrypoints := fun d hd =>
    (h d).2 (hgrown.untouched_calls hg.live_root hfree ((h' d).1 hd))
  exact (hgrown.entrypoints.eq_of_length_le (hg'.entry_nodup.subperm hsub).length_le).symm

end Graph

namespace Closure

open CallAtlas.Graph (rootId clinitId Enlarged EntryCalls Registered)
open Answers (entrySite entrySites)

section Bare

variable {σ : Type} {h : Hierarchy σ} {n m : Node} {c c' : Closure Unit}

/-- Linking an initializer calls a node that was just made, so it changes nothing about
    the nodes that were there. -/
theorem enlarged_linkInitializer (hc : Orderly h (some n) c) {i : CodeUnit} (hi : h.Mentions i) :
    Enlarged c.graph (c.linkInitializer i).graph := by
  cases hl : c.graph.lookup i .everywhere with
  | some m =>
      rw [linkInitializer_of_some hl]
      exact Enlarged.refl c.graph
  | none =>
      have hwf := (hc.newNode hl hi).orderly.wellFormed
      have hwf' := (hc.linkInitializer hi).orderly.wellFormed
      have hlarger : Enlarged c.graph (c.newNode i).2.graph := Graph.enlarged_create c.graph i
      rw [linkInitializer_of_none hl] at hwf' ⊢
      have hclinit : (c.newNode i).2.graph.contains c.clinitNode := Graph.contains_iff.2 hwf.clinit
      have hgrown : Graph.Grown (fun j => j = clinitId) (c.newNode i).2.graph _ :=
        Graph.grown_called hwf hwf' hclinit (Graph.contains_create.2 (Or.inr rfl)) rfl
      refine ⟨hlarger.toGrown.trans hgrown hc.wellFormed hwf fun _ _ ht => ht, ?_, ?_⟩
      · have hother : c.clinitNode.id ≠ rootId := by simp [clinitNode, clinitId, rootId]
        rw [(Graph.keeps_called _ _ _ _).entrypoints, if_neg hother]
        exact hlarger.entrypoints_eq
      · -- The call leads to the node that was just made.
        intro j d hd hcalls
        rcases (Graph.calls_called hclinit).1 hcalls with hcalls | ⟨_, rfl⟩
        · exact hlarger.calls_new hd hcalls
        · exact absurd hd (Graph.not_live_size c.graph)

/-- Finding a node writes to the fake world-clinit node only. In particular it does not
    write to the root, even while the root is being read. -/
theorem enlarged_found (hc : Orderly h (some n) c) (hfound : Found h c m c') :
    Enlarged c.graph c'.graph := by
  cases hfound with
  | known hl hu => exact Enlarged.refl c.graph
  | alone w hl hu hi => exact Graph.enlarged_create c.graph _
  | @initialized u i w hl hu hi =>
      have hmade := (hc.newNode hl hu).orderly
      have hlarger : Enlarged c.graph (c.newNode u).2.graph := Graph.enlarged_create c.graph u
      exact hlarger.trans (enlarged_linkInitializer hmade (.initializer w hi)) hc.wellFormed
        hmade.wellFormed

/-! ## What moves keep -/

/-- Entrypoints are registered together with calls from the root, so the two stay the
    same along every run. -/
theorem entryCalls_move (hc : Orderly h (some n) c) (hmove : Move h n c c')
    (hcalled : EntryCalls c.graph) : EntryCalls c'.graph := by
  cases hmove with
  | record site =>
      intro d
      change d ∈ (c.graph.recordSite n.id site).entrypoints ↔
        (c.graph.recordSite n.id site).Calls rootId d
      rw [(Graph.keeps_recordSite c.graph n.id site).entrypoints, Graph.calls_recordSite]
      exact hcalled d
  | @call c₁ m site hfound =>
      intro d
      rcases hc.found hfound with ⟨hproc, _⟩
      have hlarger := enlarged_found hc hfound
      -- Finding the callee touches the fake world-clinit node at most, so the root calls what
      -- it did.
      have hcalls : c₁.graph.Calls rootId d ↔ c.graph.Calls rootId d :=
        ⟨hlarger.untouched_calls hc.wellFormed.live_root (by decide), hlarger.calls⟩
      change d ∈ (c₁.graph.called n site m).entrypoints ↔ (c₁.graph.called n site m).Calls rootId d
      rw [Graph.mem_entrypoints_called hproc.orderly.wellFormed.toEntered,
        Graph.calls_called (hproc.orderly.busy_node rfl).1, hlarger.entrypoints_eq, hcalls,
        hcalled d, eq_comm (a := n.id)]

end Bare

/-! ## Reading the root -/

/-- The unit that an entrypoint brings into the graph: what it names, if that is relevant. -/
def wanted {σ : Type} (h : Hierarchy σ) (only : Bool) (single : MethodRef → Option CodeUnit)
    (e : CodeUnit) : Option CodeUnit :=
  (single e.ref).filter (relevant h only)

section Root

variable {σ : Type} {h : Hierarchy σ} {only : Bool} {single : MethodRef → Option CodeUnit}
  {root : Node} {entries done : List CodeUnit} {e : CodeUnit} {c : Closure σ}

/-- The root is being read, and the entrypoints so far are on its roll. Its sites are
    all there from the start, and what is found for one is in the cache for the next. -/
structure Entering (h : Hierarchy σ) (only : Bool) (single : MethodRef → Option CodeUnit)
    (root : Node) (entries done : List CodeUnit) (c : Closure σ) : Prop where
  orderly : Orderly h (some root) c.bare
  cached : Cached h c
  root_id : root.id = rootId
  answered : ∀ {t us}, c.candidates.find? (t, .special) = some us → us = (single t).toList
  sites : c.graph.sitesAt rootId = entrySites entries
  registered : ∃ roll, Registered (wanted h only single) done roll c.graph

theorem Entering.contains (hc : Entering h only single root entries done c) :
    c.graph.contains root :=
  (hc.orderly.busy_node rfl).1

theorem Entering.wellFormed (hc : Entering h only single root entries done c) :
    c.graph.WellFormed :=
  hc.orderly.wellFormed

/-- A site of the root that is recorded again changes nothing. -/
theorem Entering.record (hc : Entering h only single root entries done c) {site : CallSite}
    (hsite : site ∈ entrySites entries) : Entering h only single root entries done
      { c with graph := c.graph.recordSite root.id site } := by
  have hkeeps := Graph.keeps_recordSite c.graph root.id site
  rcases hc.registered with ⟨roll, hroll⟩
  refine ⟨(hc.orderly.record site).orderly, hc.cached.congr rfl rfl, hc.root_id, hc.answered, ?_,
    roll, hroll.edit hkeeps.contains_iff.2 hkeeps.entrypoints Graph.attributes_recordSite⟩
  have hlive := Graph.live_of_contains hc.contains
  change (c.graph.recordSite root.id site).sitesAt rootId = _
  rw [Graph.sitesAt_recordSite hc.wellFormed.toAttributed hlive, hc.root_id, hc.sites,
    if_neg fun hnew => hnew.2 hsite]

/-- The node that is found for a unit has this unit, and no candidate is asked for on the way. -/
theorem nodeFor_answered (hwf : c.graph.WellFormed) (u : CodeUnit) :
    (c.nodeFor h u).1.unit = u ∧ (c.nodeFor h u).2.candidates = c.candidates := by
  unfold nodeFor
  cases hl : c.graph.lookup u .everywhere with
  | some m => exact ⟨(hwf.lookup_eq_some_iff.1 hl).2.1, rfl⟩
  | none =>
      rcases hask : (c.newNode u).2.ask (.initializer u) (h.initializer u) with ⟨o, c₁⟩
      have hsame : c.candidates = c₁.candidates := congrArg (fun r => r.2.candidates) hask
      simp only [hask]
      cases o with
      | none => exact ⟨rfl, hsame.symm⟩
      | some i => exact ⟨rfl, (apart_linkInitializer c₁ i).candidates.trans hsame.symm⟩

/-- An entrypoint that brings a unit in is linked. Its node is found, which leaves the
    roll, and then called by the root, which puts it on the roll. -/
theorem Entering.link (hc : Entering h only single root entries done c)
    (hsite : entrySite e done.length ∈ entrySites entries) {u : CodeUnit} (hu : h.Mentions u)
    (he : wanted h only single e = some u) : Entering h only single root entries (done ++ [e])
      (c.link h root (entrySite e done.length) u) := by
  have hlink : c.link h root (entrySite e done.length) u = { (c.nodeFor h u).2 with
      graph := (c.nodeFor h u).2.graph.called root (entrySite e done.length) (c.nodeFor h u).1 } :=
    rfl
  have hfound := found_nodeFor hc.cached hu
  have hnode := nodeFor_answered (h := h) hc.wellFormed u
  rw [hlink]
  revert hfound hnode
  rcases c.nodeFor h u with ⟨m, c₁⟩
  rintro ⟨hfound, hcached⟩ ⟨rfl, hcandidates⟩
  rcases hc.orderly.found hfound with ⟨hproc, hm⟩
  have hwf : c₁.graph.WellFormed := hproc.orderly.wellFormed
  have hroot : c₁.graph.contains root := (hproc.orderly.busy_node rfl).1
  have hlarger : Enlarged c.graph c₁.graph := enlarged_found hc.orderly hfound
  have hmove : Move h root c.bare
      { c₁.bare with graph := c₁.bare.graph.called root (entrySite e done.length) m } :=
    .call _ hfound
  rcases hc.registered with ⟨roll, hroll⟩
  -- The roll is carried over to the graph in which the node was found.
  have hkept : Registered (wanted h only single) done roll c₁.graph :=
    hroll.grow hc.wellFormed hwf hlarger.toGrown (by decide) hlarger.entrypoints_eq
  refine ⟨(hc.orderly.move hmove).orderly, hcached.congr rfl rfl, hc.root_id, ?_, ?_, _,
    hkept.enter hwf hroot hc.root_id hm he⟩
  · intro t us hus
    refine hc.answered (t := t) ?_
    rw [← hcandidates]
    exact hus
  · have hsites : c₁.graph.sitesAt rootId = entrySites entries :=
      (hlarger.untouched_sites hc.wellFormed.live_root (by decide)).trans hc.sites
    change (c₁.graph.called root (entrySite e done.length) m).sitesAt rootId = _
    rw [Graph.sitesAt_called hwf hroot hm, hc.root_id, hsites, if_neg fun hnew => hnew.2 hsite]

section Pure

-- What an entrypoint names is the same whenever it is asked for.
variable (hsingle : ∀ r w, ((h.single r).run w).1 = single r)
include hsingle

/-- What a site of the root names comes from the cache or from the hierarchy. -/
theorem resolve_special {site : CallSite} (hkind : site.kind = .special)
    (hanswered : ∀ {t us}, c.candidates.find? (t, .special) = some us → us = (single t).toList) :
    (c.resolve h site).1 = (single site.target).toList ∧
      ∀ {t us}, (c.resolve h site).2.candidates.find? (t, .special) = some us →
        us = (single t).toList := by
  unfold resolve
  rw [hkind]
  cases hfind : c.candidates.find? (site.target, .special) with
  -- The cache has only answers of the hierarchy, so it does not matter which is asked.
  | some us => exact ⟨hanswered hfind, hanswered⟩
  | none =>
      rcases ask_eq c (.single site.target) (hsingle site.target) with ⟨w, hask⟩
      simp only [hask, Dispatch.isOverriding, Bool.false_eq_true, if_false, true_and]
      intro t us hus
      rw [Table.find?_insert] at hus
      split at hus
      · next hkey => rw [← Option.some.inj hus, (Prod.mk.inj hkey).1]
      · exact hanswered hus

/-- Asking for what a site of the root names leaves the graph. -/
theorem Entering.resolve (hc : Entering h only single root entries done c) {site : CallSite}
    (hkind : site.kind = .special) : (c.resolve h site).1 = (single site.target).toList ∧
      Entering h only single root entries done (c.resolve h site).2 := by
  rcases mentions_resolve hc.cached site with ⟨hbare, hcached, _⟩
  rcases resolve_special hsingle hkind hc.answered with ⟨hnamed, hanswered⟩
  have hgraph : (c.resolve h site).2.graph = c.graph := congrArg (fun b => b.graph) hbare
  refine ⟨hnamed, by rw [hbare]; exact hc.orderly, hcached, hc.root_id, hanswered, ?_, ?_⟩
  · rw [hgraph]
    exact hc.sites
  · rw [hgraph]
    exact hc.registered

/-- A site of the root puts its entrypoint on the roll. What it names may be missing or
    not relevant, and then its place has no node. -/
theorem Entering.visitSite (hc : Entering h only single root entries done c)
    (hsite : entrySite e done.length ∈ entrySites entries) :
    Entering h only single root entries (done ++ [e])
      (c.visitSite h only root (entrySite e done.length)) := by
  have hkind : (entrySite e done.length).kind = .special := rfl
  rcases (hc.record hsite).resolve hsingle hkind with ⟨hnamed, hc₁⟩
  have hcandidates : (single (entrySite e done.length).target).toList.filter (relevant h only) =
      (wanted h only single e).toList := (Option.toList_filter ..).symm
  -- The candidates of an entrypoint are one unit or none, as the specification wants it.
  have hvisit : c.visitSite h only root (entrySite e done.length) =
      (wanted h only single e).toList.foldl (Closure.link h root (entrySite e done.length))
        (Closure.resolve h { c with graph := c.graph.recordSite root.id (entrySite e done.length) }
          (entrySite e done.length)).2 := by
    rw [← hcandidates, ← hnamed]
    rfl
  rw [hvisit]
  cases he : wanted h only single e with
  | none =>
      rcases hc₁.registered with ⟨roll, hroll⟩
      exact { hc₁ with registered := ⟨_, hroll.skip he⟩ }
  | some u =>
      have hu : single e.ref = some u := (Option.filter_eq_some_iff.1 he).1
      exact hc₁.link hsite (.single c.world ((hsingle _ _).trans hu)) he

/-- The sites of the root that are left put their entrypoints on the roll. The induction
    is along the entrypoints, and the sites are numbered from how many of them are done. -/
theorem Entering.visitSites : ∀ (rest : List CodeUnit) {done : List CodeUnit} {c : Closure σ},
    Entering h only single root (done ++ rest) done c →
    Entering h only single root (done ++ rest) (done ++ rest)
      (((rest.zipIdx done.length).map fun (e, i) => entrySite e i).foldl
        (Closure.visitSite h only root) c) := by
  intro rest
  induction rest with
  | nil =>
      intro done c hc
      rw [List.append_nil] at hc ⊢
      exact hc
  | cons e rest ih =>
      intro done c hc
      -- The next site is numbered by what is done, and so it is one of the sites of all
      -- entrypoints.
      have hsite : entrySite e done.length ∈ entrySites (done ++ e :: rest) := by
        rw [Answers.entrySites_append]
        exact List.mem_append_right _ List.mem_cons_self
      have hsplit : done ++ e :: rest = (done ++ [e]) ++ rest := by simp
      have hnext := hc.visitSite hsingle hsite
      rw [hsplit] at hnext ⊢
      have hrest := ih hnext
      rw [List.length_append, List.length_singleton] at hrest
      exact hrest

end Pure

end Root

/-! ## Runs -/

section Runs

variable {σ : Type} {h : Hierarchy σ} {single : MethodRef → Option CodeUnit}

/-- The fake root, as the graph of a closure has it. -/
def rootNode (c : Closure σ) : Node := ⟨c.graph.serial, rootId, .fakeRoot, .everywhere, .fakeRoot⟩

/-- The closure when the root was read and nothing else. -/
def entered (h : Hierarchy σ) (only : Bool) (world : σ) (serial : Nat) (entries : List CodeUnit) :
    Closure σ :=
  let c := start world serial entries
  step h only { c with worklist := [] } c.rootNode

theorem contains_rootNode {busy : Option Node} {c : Closure σ} (hc : Orderly h busy c.bare) :
    c.graph.contains c.rootNode :=
  Graph.contains_iff.2 hc.wellFormed.root

variable (world : σ) (serial : Nat) (entries : List CodeUnit)

theorem worklist_rootNode (h : Hierarchy σ) : (start world serial entries).worklist =
    [(start world serial entries).rootNode] :=
  worklist_start (contains_rootNode (orderly_start h world serial entries)) rfl

theorem advance_start (h : Hierarchy σ) (only : Bool) (k : Nat) :
    advance h only (k + 1) (start world serial entries) =
      advance h only k (entered h only world serial entries) :=
  advance_succ k (worklist_rootNode world serial entries h)

theorem entrypoints_start : (start world serial entries).graph.entrypoints = [] := by
  rw [graph_start, (Graph.keeps_recordSites rootId _ _).entrypoints]
  rfl

/-- However far a run gets, the entrypoints are what the root calls. -/
theorem entryCalls_advance (h : Hierarchy σ) (only : Bool) (k : Nat) :
    EntryCalls (advance h only k (start world serial entries)).graph := by
  have hfirst : EntryCalls (start world serial entries).graph := by
    intro d
    rw [entrypoints_start]
    exact iff_of_false List.not_mem_nil not_calls_start
  exact (orderly_start h world serial entries).advance_keeps (P := fun g _ => EntryCalls g)
    entryCalls_move (cached_start h world serial entries) hfirst only k

/-- Before any site is visited the roll is empty. -/
theorem entering_start (h : Hierarchy σ) (only : Bool) (single : MethodRef → Option CodeUnit) :
    Entering h only single (start world serial entries).rootNode entries []
      { start world serial entries with worklist := [], pops := 0 + 1 } := by
  have hstart := orderly_start h world serial entries
  have hcached := cached_start h world serial entries
  have hroot := contains_rootNode hstart
  refine ⟨hstart.take (worklist_rootNode world serial entries h), hcached.congr rfl rfl, rfl, ?_, ?_,
    [], rfl, rfl, fun hm => absurd hm List.not_mem_nil, entrypoints_start world serial entries, ?_⟩
  · intro t us hus
    exact absurd hus (by simp [start])
  · -- The sites of the root were recorded at the start, and none of them has a target yet.
    exact (Graph.callSites_eq hroot).symm.trans (code_start hroot rfl).1
  · intro site d
    change (start world serial entries).graph.Attributes _ _ _ ↔ _
    rw [graph_start, Graph.attributes_recordSites]
    exact iff_of_false Graph.not_attributes_fresh (by simp)

section Pure

variable (hsingle : ∀ r w, ((h.single r).run w).1 = single r) (only : Bool)
include hsingle

/-- After the root was read all entrypoints are on the roll. -/
theorem entering_entered : Entering h only single (start world serial entries).rootNode entries
    entries (entered h only world serial entries) := by
  have hroot := contains_rootNode (orderly_start h world serial entries)
  have hstep : entered h only world serial entries =
      ((start world serial entries).graph.callSites (start world serial entries).rootNode).foldl
        (visitSite h only (start world serial entries).rootNode)
        { start world serial entries with worklist := [], pops := 0 + 1 } := rfl
  have hnone : Entering h only single (start world serial entries).rootNode ([] ++ entries) []
      { start world serial entries with worklist := [], pops := 0 + 1 } :=
    entering_start world serial entries h only single
  rw [hstep, (code_start hroot rfl).1]
  exact Entering.visitSites hsingle entries hnone

/-- The sites of the root and its roll stay as they are, however long the closure runs.
    The root is not written to after it was read, and nothing else registers
    entrypoints. -/
theorem registered_advance (k : Nat) :
    let g := (advance h only (k + 1) (start world serial entries)).graph
    g.sitesAt rootId = entrySites entries ∧
      ∃ roll, Registered (wanted h only single) entries roll g := by
  intro g
  have hread := entering_entered world serial entries hsingle only
  have hstart := orderly_start h world serial entries
  have hcached := cached_start h world serial entries
  rcases hstart.step hcached (worklist_rootNode world serial entries h) only with
    ⟨hc₁, hcached₁, _, _, hfree⟩
  have hc₁ : Orderly h none (entered h only world serial entries).bare := hc₁
  rcases hc₁.advance hcached₁ only k with ⟨hk, _, hlater⟩
  have hg : g = (advance h only k (entered h only world serial entries)).graph :=
    congrArg Closure.graph (advance_start world serial entries h only k)
  have hwf : g.WellFormed := by
    rw [hg]
    exact hk.wellFormed
  have hgrown : Graph.Grown (Open (entered h only world serial entries).bare)
      (entered h only world serial entries).graph g := by
    rw [hg]
    exact hlater.toGrown
  -- The root was read, so it is no longer written to.
  have hclosed : ¬Open (entered h only world serial entries).bare rootId :=
    hc₁.not_open_of_processed (hc₁.mem_processed.2 ⟨hread.contains, by simp [rootNode], hfree⟩)
  have hfirst := entryCalls_advance world serial entries h only 1
  rw [advance_start] at hfirst
  have hentry : g.entrypoints = (entered h only world serial entries).graph.entrypoints :=
    Graph.EntryCalls.entrypoints_eq hfirst (entryCalls_advance world serial entries h only (k + 1))
      hread.wellFormed hwf hgrown hclosed
  rcases hread.registered with ⟨roll, hroll⟩
  exact ⟨(hgrown.untouched_sites hread.wellFormed.live_root hclosed).trans hread.sites, roll,
    hroll.grow hread.wellFormed hwf hgrown hclosed hentry⟩

end Pure

/-- A run that looks once reads the root. -/
theorem exists_build_eq_advance (h : Hierarchy σ) (only : Bool) {life : Lifetime}
    (hlife : life.poll.1 = none) : ∃ k, (build h world serial only entries life).1 =
      advance h only (k + 1) (start world serial entries) := by
  have hw := worklist_rootNode world serial entries h
  rcases hpoll : life.poll with ⟨cause, life'⟩
  rw [hpoll] at hlife
  subst hlife
  -- The first look succeeds, so the first step of the run is made.
  have hrun : build h world serial only entries life =
      run h only h.bound life' (entered h only world serial entries) := by
    rw [build, run]
    simp only [hw, hpoll]
    rfl
  rw [hrun]
  rcases exists_run_eq_advance h only h.bound life' (entered h only world serial entries) with
    ⟨k, hk⟩
  exact ⟨k, by rw [hk, advance_start]⟩

end Runs

open CallAtlas.Graph (entryNode)

/-- The fake root after any run that looked once. Its sites, its callees and the entrypoints of
    the graph say the same.

    The sites are those of the list of entrypoints, whatever the entrypoints name. Where a site
    leads is said through `wanted`, which knows nothing of graphs: the unit that the entrypoint
    names, if it is relevant. That nothing calls the root is the one part that an answer can
    break. -/
theorem root_and_entrypoints_agree {σ : Type} {h : Hierarchy σ} {single : MethodRef → Option CodeUnit}
    (hsingle : ∀ r w, ((h.single r).run w).1 = single r) (world : σ) (serial : Nat) (only : Bool)
    (entries : List CodeUnit) {life : Lifetime} (hlife : life.poll.1 = none) :
    let g := (build h world serial only entries life).1.graph
    let entry := entryNode (wanted h only single) g
    ∃ root, CallGraph.fakeRoot g = some root ∧ root.kind = .fakeRoot ∧
      -- Each entrypoint has a site, whether it names anything or not.
      g.callSites root = entrySites entries ∧
      -- Its target is the node of the relevant unit that it names. There is such a node if
      -- there is such a unit.
      (∀ i e, entries[i]? = some e → g.targets root (entrySite e i) = (entry e).toList ∧
        (entry e).map Node.unit = wanted h only single e) ∧
      -- The entrypoints are these nodes in their order, and they are what the root calls.
      CallGraph.entrypoints g = (entries.filterMap entry).eraseDups ∧
      (∀ m, m ∈ CallGraph.entrypoints g ↔ m ∈ g.succs root) ∧
      -- Nothing calls the root, unless its unit is an answer.
      (¬h.Mentions .fakeRoot → g.preds root = []) := by
  intro g entry
  have hstart := orderly_start h world serial entries
  have hcached := cached_start h world serial entries
  rcases exists_build_eq_advance world serial entries h only hlife with ⟨k, hk⟩
  have hg : g = (advance h only (k + 1) (start world serial entries)).graph :=
    congrArg Closure.graph hk
  have horder := (hstart.advance hcached only (k + 1)).1
  have hwf : g.WellFormed := by
    rw [hg]
    exact horder.wellFormed
  have heverywhere : ∀ {n}, g.contains n → n.context = .everywhere := by
    rw [hg]
    exact horder.everywhere
  have hcalls : EntryCalls g := by
    rw [hg]
    exact entryCalls_advance world serial entries h only (k + 1)
  rcases registered_advance world serial entries hsingle only k with ⟨hsites, roll, hroll⟩
  rw [← hg] at hsites hroll
  let root : Node := ⟨g.serial, rootId, .fakeRoot, .everywhere, .fakeRoot⟩
  have hroot : g.contains root := Graph.contains_iff.2 hwf.root
  refine ⟨root, hwf.root, rfl, ?_, ?_, ?_, ?_, ?_⟩
  · rw [Graph.callSites_eq hroot]
    exact hsites
  · intro i e he
    rcases hroll.getElem?_eq hwf heverywhere he with ⟨hplace, hunit⟩
    exact ⟨hroll.targets_eq hwf hroot rfl (List.mem_of_getElem? hplace), hunit⟩
  · have hlist : entries.filterMap entry = (entries.map entry).filterMap id := by
      rw [List.filterMap_map]
      rfl
    rw [hroll.entrypoints_eq, hlist, hroll.map_entryNode hwf heverywhere, List.filterMap_map]
    rfl
  · intro m
    change m ∈ g.nodesWith g.entrypoints ↔ _
    rw [hwf.mem_nodesWith, hwf.mem_succs, hcalls m.id]
    exact ⟨fun ⟨hcalls, hm⟩ => ⟨hroot, hm, hcalls⟩, fun ⟨_, hm, hcalls⟩ => ⟨hcalls, hm⟩⟩
  · have hanswers : CallsAnswers h g := by
      rw [hg]
      exact callsAnswers_advance h only world serial entries (k + 1)
    exact hanswers.preds_eq_nil (m := root) hwf

/-! ## A class with three entrypoints -/

/-- A class with a method, one without code and an initializer. The method calls itself. -/
def harbor : Answers where
  single r := if r.owner = "Harbor" then some (.named r) else none
  overrides _ := []
  isAbstract u := u.ref.name = "plan"
  loader _ := .application
  initializer u :=
    if u.ref.owner = "Harbor" then some (.named ⟨"Harbor", "init", "()"⟩) else none
  callSites u :=
    if u.ref.name = "open" then [⟨7, ⟨"Harbor", "open", "()"⟩, .static⟩] else []
  wrapper _ _ := none

/-- No unit of the harbor is the root. -/
theorem harbor_real : ¬(harbor.hierarchy 3).Mentions .fakeRoot := by
  intro hmentions
  cases (harbor.givenBy_hierarchy 3).mentions hmentions with
  | single hu =>
      simp only [harbor, Option.ite_none_right_eq_some, Option.some.injEq] at hu
      rcases hu with ⟨howner, hu⟩
      obtain rfl := CodeUnit.named.inj hu
      -- What a reference finds is the unit of that reference, and the root has another owner.
      exact absurd howner (by decide)
  | overrides hu => exact absurd hu List.not_mem_nil
  | initializer hu =>
      simp only [harbor, Option.ite_none_right_eq_some, Option.some.injEq] at hu
      exact absurd hu.2 (by decide)
  | wrapper hu => simp [harbor] at hu

/-- Of five entrypoints one names nothing, one names what has no code, and one is there twice.
    The initializer has its node from the class when its turn comes. -/
theorem root_and_entrypoints_agree_harbor :
    let entries : List CodeUnit := [.named ⟨"Harbor", "open", "()"⟩, .named ⟨"Sea", "storm", "()"⟩,
      .named ⟨"Harbor", "plan", "()"⟩, .named ⟨"Harbor", "init", "()"⟩,
      .named ⟨"Harbor", "open", "()"⟩]
    let g := (build (harbor.hierarchy 3) () 0 false entries .unbounded).1.graph
    let root : Node := ⟨0, 0, .fakeRoot, .everywhere, .fakeRoot⟩
    let opening : Node := ⟨0, 2, .named ⟨"Harbor", "open", "()"⟩, .everywhere, .ordinary⟩
    let init : Node := ⟨0, 3, .named ⟨"Harbor", "init", "()"⟩, .everywhere, .ordinary⟩
    (Lifetime.unbounded.poll.1 = none ∧ ¬(harbor.hierarchy 3).Mentions .fakeRoot) ∧
      g.callSites root = [⟨0, ⟨"Harbor", "open", "()"⟩, .special⟩,
        ⟨1, ⟨"Sea", "storm", "()"⟩, .special⟩, ⟨2, ⟨"Harbor", "plan", "()"⟩, .special⟩,
        ⟨3, ⟨"Harbor", "init", "()"⟩, .special⟩, ⟨4, ⟨"Harbor", "open", "()"⟩, .special⟩] ∧
      g.targets root ⟨1, ⟨"Sea", "storm", "()"⟩, .special⟩ = [] ∧
      g.targets root ⟨2, ⟨"Harbor", "plan", "()"⟩, .special⟩ = [] ∧
      g.targets root ⟨4, ⟨"Harbor", "open", "()"⟩, .special⟩ = [opening] ∧
      CallGraph.entrypoints g = [opening, init] ∧ opening ∈ g.succs root ∧ g.preds root = [] := by
  intro entries g root opening init
  have hlife : Lifetime.unbounded.poll.1 = none := rfl
  have hroot : CallGraph.fakeRoot g = some root := by decide +kernel
  -- What each of the entrypoints comes to is computed here, and the rest is the theorem.
  let entry := entryNode (wanted (harbor.hierarchy 3) false harbor.single) g
  have hstorm : entry (.named ⟨"Sea", "storm", "()"⟩) = none := by decide +kernel
  have hplan : entry (.named ⟨"Harbor", "plan", "()"⟩) = none := by decide +kernel
  have hopening : entry (.named ⟨"Harbor", "open", "()"⟩) = some opening := by decide +kernel
  rcases root_and_entrypoints_agree (harbor.givenBy_hierarchy 3).single () 0 false entries hlife with
    ⟨n, hn, _, hsites, htargets, hlist, hsuccs, hpreds⟩
  obtain rfl : root = n := Option.some.inj (hroot.symm.trans hn)
  have hnodes : CallGraph.entrypoints g = [opening, init] := hlist.trans (by decide +kernel)
  have hcalled : opening ∈ CallGraph.entrypoints g := by
    rw [hnodes]
    exact List.mem_cons_self
  exact ⟨⟨hlife, harbor_real⟩, hsites, (htargets 1 _ rfl).1.trans (congrArg Option.toList hstorm),
    (htargets 2 _ rfl).1.trans (congrArg Option.toList hplan),
    (htargets 4 _ rfl).1.trans (congrArg Option.toList hopening), hnodes,
    (hsuccs opening).1 hcalled, hpreds harbor_real⟩

/-! ## A function object that is the root -/

/-- The root is called, although what calls and classes are answered with is never
    synthetic. As with the other synthetic node, it takes a function object to do this. -/
theorem wrapper_calls_root :
    let a := relay .fakeRoot
    let entries : List CodeUnit := [.named ⟨"app", "main", "()"⟩]
    let g := (build (a.hierarchy 2) () 0 false entries .unbounded).1.graph
    let root : Node := ⟨0, 0, .fakeRoot, .everywhere, .fakeRoot⟩
    let main : Node := ⟨0, 2, .named ⟨"app", "main", "()"⟩, .everywhere, .ordinary⟩
    (∀ r v u, a.single r = some u ∨ u ∈ a.overrides r ∨ a.initializer v = some u →
      u ≠ .fakeRoot ∧ u ≠ .fakeWorldClinit) ∧
    Lifetime.unbounded.poll.1 = none ∧ CallGraph.fakeRoot g = some root ∧
      g.preds root = [main] :=
  ⟨fun _ _ _ => relay_real .fakeRoot, rfl, by decide +kernel, by decide +kernel⟩

end Closure

end CallAtlas
