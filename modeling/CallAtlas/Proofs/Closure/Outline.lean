import CallAtlas.Proofs.Closure.Exactness
import CallAtlas.Proofs.Lawful

/-!
# Closures Without Their Numbers

Two closures of one program may visit their nodes in completely different orders, and then
they number them differently. No step of the one corresponds to a step of the other, so
they cannot be compared while they run. What can be compared is what they end with, if the
numbers are left out and nodes are known by their units.

The outline of a graph is this: which units have nodes, and for the nodes of each kind the
edges, sites and targets that leave them, all in terms of units. The fake world-clinit node
is kept apart by its kind, since what it calls does depend on the order. For every other kind
the outline of a finished closure can be read off the answers of the hierarchy, once the units
of the ordinary nodes are known, and these are the least closed set.

A run counts as finished if it was not cut short, whether its caller would have waited longer
or not.

## Main definitions

* `Graph.unitsOf`, `Graph.edgesFrom`, `Graph.sitesFrom`, `Graph.targetsFrom`,
  `Graph.entryUnits`: The outline of a graph.
* `Answers.codeOf`: The sites in the code of a unit, by kind of node.

## Theorems

* `Graph.WellFormed.unitsOf_eq_of_synthetic`: The synthetic nodes are in every graph.
* `Closure.run_of_uncut`: A run that was not cut short is the run without a limit.
* `Closure.reading_build`: A closure that was not cut short is finished.
* `Closure.Sound.kind_eq`: The unit of a node tells its kind.
* `Closure.Reading.exists_target_iff`: The targets of a site by their units.
* `Closure.Reading.mem_edgesFrom`, `Closure.Reading.mem_sitesFrom`,
  `Closure.Reading.mem_targetsFrom`, `Closure.Reading.mem_entryUnits`: The outline of a
  finished closure.
-/

namespace CallAtlas

namespace Graph

/-- The units of the nodes of a kind. -/
def unitsOf (g : Graph) (k : NodeKind) : Set CodeUnit :=
  {u | ∃ n, g.contains n ∧ n.kind = k ∧ n.unit = u}

/-- The edges that leave the nodes of a kind, as pairs of units. -/
def edgesFrom (g : Graph) (k : NodeKind) : Set (CodeUnit × CodeUnit) :=
  {e | ∃ n m, g.hasEdge n m ∧ n.kind = k ∧ (n.unit, m.unit) = e}

/-- The units of the nodes of a kind, each with the list of its recorded sites. -/
def sitesFrom (g : Graph) (k : NodeKind) : Set (CodeUnit × List CallSite) :=
  {e | ∃ n, g.contains n ∧ n.kind = k ∧ (n.unit, g.callSites n) = e}

/-- The units of the nodes of a kind, with a site and the unit of a target of it. -/
def targetsFrom (g : Graph) (k : NodeKind) : Set (CodeUnit × CallSite × CodeUnit) :=
  {e | ∃ n site m, m ∈ g.targets n site ∧ n.kind = k ∧ (n.unit, site, m.unit) = e}

/-- The units of the entrypoints. -/
def entryUnits (g : Graph) : Set CodeUnit := {u | ∃ n ∈ CallGraph.entrypoints g, n.unit = u}

variable {g : Graph}

/-- The first root is the only node of its kind, in every graph. -/
theorem WellFormed.unitsOf_fakeRoot (hg : WellFormed g) : g.unitsOf .fakeRoot = {.fakeRoot} := by
  ext u
  constructor
  · rintro ⟨n, hn, hk, rfl⟩
    rcases hg.node_cases hn with rfl | rfl | ⟨_, _, hord⟩
    · rfl
    · exact absurd hk (by simp)
    · exact absurd (hk.symm.trans hord) (by simp)
  · rintro rfl
    have hroot : g.contains ⟨g.serial, rootId, .fakeRoot, .everywhere, .fakeRoot⟩ :=
      contains_iff.2 hg.root
    exact ⟨_, hroot, rfl, rfl⟩

theorem WellFormed.unitsOf_fakeWorldClinit (hg : WellFormed g) :
    g.unitsOf .fakeWorldClinit = {.fakeWorldClinit} := by
  ext u
  constructor
  · rintro ⟨n, hn, hk, rfl⟩
    rcases hg.node_cases hn with rfl | rfl | ⟨_, _, hord⟩
    · exact absurd hk (by simp)
    · rfl
    · exact absurd (hk.symm.trans hord) (by simp)
  · rintro rfl
    have hclinit : g.contains ⟨g.serial, clinitId, .fakeWorldClinit, .everywhere, .fakeWorldClinit⟩ :=
      contains_iff.2 hg.clinit
    exact ⟨_, hclinit, rfl, rfl⟩

/-- The synthetic nodes are in every graph, so two closures can differ in ordinary nodes only. -/
theorem WellFormed.unitsOf_eq_of_synthetic {g' : Graph} (hg : WellFormed g) (hg' : WellFormed g')
    {k : NodeKind} (hk : k ≠ .ordinary) : g.unitsOf k = g'.unitsOf k := by
  cases k with
  | ordinary => exact absurd rfl hk
  | fakeRoot => rw [hg.unitsOf_fakeRoot, hg'.unitsOf_fakeRoot]
  | fakeWorldClinit => rw [hg.unitsOf_fakeWorldClinit, hg'.unitsOf_fakeWorldClinit]

end Graph

namespace Answers

/-- The sites in the code of a unit whose node is of a given kind. -/
def codeOf (a : Answers) (entrypoints : List CodeUnit) : NodeKind → CodeUnit → List CallSite
  | .fakeRoot, _ => entrySites entrypoints
  | .fakeWorldClinit, _ => []
  | .ordinary, u => a.callSites u

/-- The code of a node depends on its kind and its unit, so it can be asked of units. -/
theorem code_eq_codeOf (a : Answers) (entrypoints : List CodeUnit) (n : Node) :
    a.code entrypoints n = a.codeOf entrypoints n.kind n.unit := by
  unfold code
  cases n.kind <;> rfl

/-- What the root calls is what the entrypoints name. An entrypoint is a site of the
    root, and sites of this kind invoke what they name and nothing else. -/
theorem exists_entry_iff {a : Answers} {only : Bool} {entrypoints : List CodeUnit} {u v : CodeUnit} :
    (∃ site ∈ entrySites entrypoints, a.Candidate only u site v) ↔
      ∃ e ∈ entrypoints, a.single e.ref = some v ∧ a.Relevant only v := by
  constructor
  · rintro ⟨site, hsite, hrel, hv⟩
    rcases mem_entrySites hsite with ⟨e, he, htarget, hkind⟩
    rw [hkind, htarget] at hv
    exact ⟨e, he, hv, hrel⟩
  · rintro ⟨e, he, hv, hrel⟩
    rcases exists_entrySite he with ⟨site, hsite, htarget, hkind⟩
    refine ⟨site, hsite, hrel, ?_⟩
    rw [hkind, htarget]
    exact hv

end Answers

namespace Closure

open CallAtlas.Graph (rootId clinitId)

variable {σ : Type} {a : Answers} {only : Bool} {entries : List CodeUnit} {h : Hierarchy σ}

/-! ## Runs that were not cut short -/

/-- A run that was not cut short is the run without a limit. Each look found somebody
    waiting, which is what looks find when there is no limit. -/
theorem run_of_uncut (steps : Nat) (life : Lifetime) (c : Closure σ)
    (hend : (Closure.run h only steps life c).2 = none) :
    Closure.run h only steps .unbounded c = Closure.run h only steps life c := by
  induction steps generalizing life c with
  | zero => rfl
  | succ steps ih =>
      unfold Closure.run at hend ⊢
      cases hw : c.worklist with
      | nil => rfl
      | cons n rest =>
          rw [hw] at hend
          cases hpoll : life.poll with
          | mk found life' =>
              rw [hpoll] at hend
              -- A look that finds nobody waiting would have cut the run.
              cases found with
              | some cause => exact absurd hend (by simp)
              | none =>
                  rw [Lifetime.poll_of_unbounded (l := .unbounded) rfl]
                  exact ih life' _ hend

/-- A closure that was not cut short is finished: nothing waits, and every node has been
    read. The number of steps is no limit either, since it exceeds the number of units
    that can get a node. -/
theorem reading_build (ha : a.GivenBy h) (hok : a.Admissible h.bound) {world : σ} {serial : Nat}
    {life : Lifetime} (hend : (build h world serial only entries life).2 = none) :
    let c := (build h world serial only entries life).1
    c.worklist = [] ∧ Reading a only entries none c := by
  have hsteps : h.bound < h.bound + 1 + (start world serial entries).pops :=
    Nat.lt_add_right _ (Nat.lt_succ_self _)
  have hlife : Lifetime.unbounded.polls = none := rfl
  have hrun := (Reading.run ha hok hlife (h.bound + 1) (reading_start a only world serial entries)
    hsteps).2
  rw [run_of_uncut (h.bound + 1) life _ hend] at hrun
  exact hrun

/-! ## Units and kinds -/

/-- The unit of a node tells its kind, in whatever closure it is. -/
theorem Sound.kind_eq {bound : Nat} (hok : a.Admissible bound) {g : Graph}
    (hg : Sound a only entries g) {n : Node} (hn : g.contains n) :
    n.kind = if n.unit = .fakeRoot then .fakeRoot
      else if n.unit = .fakeWorldClinit then .fakeWorldClinit else .ordinary := by
  rcases hg.wellFormed.kind_cases hn with ⟨_, hk, hu⟩ | ⟨_, hk, hu⟩ | ⟨_, _, hk⟩
  · rw [if_pos hu, hk]
  · have hne : CodeUnit.fakeWorldClinit ≠ CodeUnit.fakeRoot := by decide
    rw [hu, if_neg hne, if_pos rfl, hk]
  · -- The hierarchy mentions the units of ordinary nodes, and never a synthetic one.
    have hsyn := hok.not_synthetic (hg.mentioned hn hk)
    rw [if_neg hsyn.1, if_neg hsyn.2, hk]

/-- Units tell the nodes of a closure apart, because all nodes have the same context.
    Closures that number their nodes differently are compared by units for this reason. -/
theorem Sound.eq_of_unit_eq {g : Graph} (hg : Sound a only entries g) {n m : Node}
    (hn : g.contains n) (hm : g.contains m) (hunit : n.unit = m.unit) : n = m := by
  have hlookup := hg.lookup_eq hn
  rw [hunit, hg.lookup_eq hm, Option.some.injEq] at hlookup
  exact hlookup.symm

/-! ## The outline of a finished closure -/

section Done

variable {c : Closure σ} (hc : Reading a only entries none c) (hdone : c.worklist = [])
include hc hdone

/-- The units of the targets of a site are its candidates. -/
theorem Reading.exists_target_iff {n : Node} (hn : c.graph.contains n)
    (hk : n.kind ≠ .fakeWorldClinit) {site : CallSite} {v : CodeUnit} :
    (∃ m ∈ c.graph.targets n site, m.unit = v) ↔
      site ∈ a.code entries n ∧ a.Candidate only n.unit site v := by
  constructor
  · rintro ⟨m, hm, rfl⟩
    rcases (hc.mem_targets hdone hn hk).1 hm with ⟨hsite, v, hv, hlookup⟩
    rw [(hc.wellFormed.lookup_eq_some_iff.1 hlookup).2.1]
    exact ⟨hsite, hv⟩
  · rintro ⟨hsite, hv⟩
    -- A candidate has a node by now.
    rcases (hc.finished_of_done hdone hn hk).linked site hsite v hv with ⟨m, hm, rfl, _⟩
    exact ⟨m, (hc.mem_targets hdone hn hk).2 ⟨hsite, m.unit, hv, hc.lookup_eq hm⟩, rfl⟩

/-- The units of the callees of a node are the candidates of its sites. Every edge of a
    closure belongs to a site, so there are no others. -/
theorem Reading.exists_callee_iff {n : Node} (hn : c.graph.contains n)
    (hk : n.kind ≠ .fakeWorldClinit) {v : CodeUnit} :
    (∃ m, c.graph.hasEdge n m ∧ m.unit = v) ↔
      ∃ site ∈ a.code entries n, a.Candidate only n.unit site v := by
  have hedge : ∀ m, c.graph.hasEdge n m ↔ ∃ site ∈ c.graph.callSites n, m ∈ c.graph.targets n site := by
    intro m
    rw [Graph.hasEdge_iff, ← hc.wellFormed.mem_succs, hc.mem_succs]
  constructor
  · rintro ⟨m, hm, rfl⟩
    rcases (hedge m).1 hm with ⟨site, _, hm⟩
    exact ⟨site, (hc.exists_target_iff hdone hn hk).1 ⟨m, hm, rfl⟩⟩
  · rintro ⟨site, hv⟩
    rcases (hc.exists_target_iff hdone hn hk).2 hv with ⟨m, hm, hunit⟩
    exact ⟨m, (hedge m).2 ⟨site, (hc.wellFormed.target_edge hm).1, hm⟩, hunit⟩

variable {k : NodeKind} (hk : k ≠ .fakeWorldClinit)
include hk

/-- The targets of a closure by units. The code of a unit decides them, together with
    the set of units that have a node. The same holds of edges and sites below, so two
    closures with the same units have the same outline. -/
theorem Reading.mem_targetsFrom {u v : CodeUnit} {site : CallSite} :
    (u, site, v) ∈ c.graph.targetsFrom k ↔
      u ∈ c.graph.unitsOf k ∧ site ∈ a.codeOf entries k u ∧ a.Candidate only u site v := by
  constructor
  · rintro ⟨n, site', m, hm, rfl, heq⟩
    rw [Prod.mk.injEq, Prod.mk.injEq] at heq
    rcases heq with ⟨rfl, rfl, rfl⟩
    have hn := (hc.wellFormed.mem_targets.1 hm).1
    rw [← a.code_eq_codeOf]
    exact ⟨⟨n, hn, rfl, rfl⟩, (hc.exists_target_iff hdone hn hk).1 ⟨m, hm, rfl⟩⟩
  · rintro ⟨⟨n, hn, rfl, rfl⟩, hv⟩
    rw [← a.code_eq_codeOf] at hv
    rcases (hc.exists_target_iff hdone hn hk).2 hv with ⟨m, hm, rfl⟩
    exact ⟨n, site, m, hm, rfl, rfl⟩

theorem Reading.mem_edgesFrom {u v : CodeUnit} :
    (u, v) ∈ c.graph.edgesFrom k ↔
      u ∈ c.graph.unitsOf k ∧ ∃ site ∈ a.codeOf entries k u, a.Candidate only u site v := by
  constructor
  · rintro ⟨n, m, hm, rfl, heq⟩
    rw [Prod.mk.injEq] at heq
    rcases heq with ⟨rfl, rfl⟩
    have hn := (Graph.hasEdge_iff.1 hm).1
    rw [← a.code_eq_codeOf]
    exact ⟨⟨n, hn, rfl, rfl⟩, (hc.exists_callee_iff hdone hn hk).1 ⟨m, hm, rfl⟩⟩
  · rintro ⟨⟨n, hn, rfl, rfl⟩, hv⟩
    rw [← a.code_eq_codeOf] at hv
    rcases (hc.exists_callee_iff hdone hn hk).2 hv with ⟨m, hm, rfl⟩
    exact ⟨n, m, hm, rfl, rfl⟩

/-- Sites are recorded in the order of the code and once each. -/
theorem Reading.mem_sitesFrom {u : CodeUnit} {sites : List CallSite} :
    (u, sites) ∈ c.graph.sitesFrom k ↔
      u ∈ c.graph.unitsOf k ∧ sites = (a.codeOf entries k u).eraseDups := by
  constructor
  · rintro ⟨n, hn, rfl, heq⟩
    rw [Prod.mk.injEq] at heq
    rcases heq with ⟨rfl, rfl⟩
    rw [hc.callSites_eq hdone hn hk, a.code_eq_codeOf]
    exact ⟨⟨n, hn, rfl, rfl⟩, rfl⟩
  · rintro ⟨⟨n, hn, rfl, rfl⟩, rfl⟩
    refine ⟨n, hn, rfl, ?_⟩
    rw [hc.callSites_eq hdone hn hk, a.code_eq_codeOf]

omit hk

/-- The edges of the root lead to what the entrypoints name. -/
theorem Reading.mem_edgesFrom_root {u v : CodeUnit} :
    (u, v) ∈ c.graph.edgesFrom .fakeRoot ↔
      u = .fakeRoot ∧ ∃ e ∈ entries, a.single e.ref = some v ∧ a.Relevant only v := by
  rw [hc.mem_edgesFrom hdone (by simp), hc.wellFormed.unitsOf_fakeRoot, Set.mem_singleton_iff]
  exact and_congr_right fun _ => Answers.exists_entry_iff

/-- The entrypoints are what the entrypoints of the program name. -/
theorem Reading.mem_entryUnits {v : CodeUnit} :
    v ∈ c.graph.entryUnits ↔ ∃ e ∈ entries, a.single e.ref = some v ∧ a.Relevant only v := by
  have hroot : c.graph.contains ⟨c.graph.serial, rootId, .fakeRoot, .everywhere, .fakeRoot⟩ :=
    Graph.contains_iff.2 hc.wellFormed.root
  rw [← Answers.exists_entry_iff (u := .fakeRoot)]
  refine Iff.trans ?_ (hc.exists_callee_iff hdone hroot (by simp))
  refine exists_congr fun m => and_congr_left fun _ => ?_
  rw [← hc.mem_entrypoints hroot rfl, hc.wellFormed.mem_succs, Graph.hasEdge_iff]

end Done

end Closure

end CallAtlas
