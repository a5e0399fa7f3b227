import CallAtlas.Analysis
import CallAtlas.Proofs.Completion
import CallAtlas.Proofs.Program.Extent
import CallAtlas.Proofs.Prune.Kept
import CallAtlas.Proofs.Prune.Refined

/-!
# What an Analysis Gives

An analysis puts the stages together: the closure of the entrypoints of a program, the refinement
of its graph, and the pruning of what is left. Each stage has its own theory, with assumptions of
its own and for any input. Here they are applied to what the stages before them leave, and the
assumptions are met: nothing is assumed of the program, the project or the settings.

A run gives up for three reasons, in this order: the project has no entrypoints, the policy has no
meaning, the depth is negative. These can be told before anything is built. No run is ever
cancelled, because its caller waits for ever, and none stops for lack of steps.

A run that does not give up has read all code that it found. What its refiner hides are calls that
variable type analysis speaks against at each of their sites, since the state of the refiner is
one of those that passes and preparations lead to. The view is connected from its root. And no
function of the application is lost on the way: if calls that the analysis does not speak against
lead there, it is in the view.

## Main definitions

* `Analysis.Refuted`: Variable type analysis speaks against a call at each of its sites.
* `Analysis.refusal`: Why there will be no result.
* `Analysis.Correct`: What a result is like.

## Theorems

* `scan_ends`: How a scan may end whose visits end in known ways.
* `Refiner.patient_run`: Refinement for a caller that waits does not fail.
* `Analysis.refuted_of_hides`: Hidden edges are refuted.
* `Analysis.run_correct`: A run is refused for a known reason, or its result is correct.
* `Analysis.application_kept`: Functions of the application are not lost.
-/

namespace CallAtlas

/-! ## Passes for a caller that waits -/

/-- A scan ends only as one of its visits may end, and keeps what each of them keeps.
    Both are said at once, since the second visit has to rely on what the first has
    kept. -/
theorem scan_ends {α σ ε : Type} {visit : α → σ → Option ε × σ} {motive : σ → Prop}
    {ends : ε → Prop}
    (hvisit : ∀ a t, motive t → motive (visit a t).2 ∧ ∀ e, (visit a t).1 = some e → ends e) :
    ∀ (l : List α) (s : σ), motive s →
      motive (scan visit l s).2 ∧ ∀ e, (scan visit l s).1 = some e → ends e := by
  intro l
  induction l with
  | nil =>
      intro s hs
      exact ⟨hs, fun e he => absurd he (by simp [scan])⟩
  | cons a rest ih =>
      intro s hs
      have hfirst := hvisit a s hs
      unfold scan
      rcases hv : visit a s with ⟨ended, s'⟩
      rw [hv] at hfirst
      cases ended with
      -- The first visit ends the scan, so the others need not be looked at.
      | some e => exact hfirst
      | none => exact ih s' hfirst.1

namespace Refiner

variable {G π : Type} [CallGraph G] [RefinementPolicy π] {p : Program} {g : G}

/-- A visit of a site does not look whether the caller waits, so all that can end it is the
    budget. -/
theorem patient_visitSite (n : Node) (caller : Nat) (site : CallSite) (r : RefinePass π) :
    (visitSite p g n caller site r).2.state.life = r.state.life ∧
      ∀ e, (visitSite p g n caller site r).1 = some e → e = .outOfBudget := by
  have hvisit := visit_visitSite p g n caller site r
  revert hvisit
  rcases visitSite p g n caller site r with ⟨ended, r'⟩
  intro hvisit
  cases hvisit with
  | skipped _ => exact ⟨rfl, fun e he => by cases he⟩
  | passedBy _ _ => exact ⟨rfl, fun e he => by cases he⟩
  | declined _ _ _ => exact ⟨rfl, fun e he => by cases he⟩
  | unpaid _ _ _ => exact ⟨rfl, fun e he => (Option.some.inj he).symm⟩
  | narrowed _ _ _ => exact ⟨rfl, fun e he => by cases he⟩

/-- The visit of a node looks once, and a caller that waits for ever is found to wait. -/
theorem patient_visitNode {life : Lifetime} (hlife : life.polls = none) (n : Node)
    (r : RefinePass π) (hr : r.state.life = life) :
    (visitNode p g n r).2.state.life = life ∧
      ∀ e, (visitNode p g n r).1 = some e → e = .outOfBudget := by
  have hpoll : r.state.life.poll = (none, life) := by
    rw [hr, Lifetime.poll_of_unbounded hlife]
  unfold visitNode
  rw [hpoll]
  cases n.unit.function? with
  | none => exact ⟨rfl, fun e he => by cases he⟩
  | some caller =>
      refine scan_ends (motive := fun t : RefinePass π => t.state.life = life) ?_ _ _ rfl
      intro site t ht
      have hsite := patient_visitSite (p := p) (g := g) n caller site t
      exact ⟨hsite.1.trans ht, hsite.2⟩

/-- A pass whose caller waits for ever leaves it waiting, and ends for lack of budget or not at
    all. -/
theorem patient_pass (budget : Budget) {s : PassState Refiner π} (hlife : s.life.polls = none) :
    (pass p g budget s).2.2.life = s.life ∧
      ∀ e, (pass p g budget s).1.error = some e → e = .outOfBudget := by
  have hscan := scan_ends (motive := fun t : RefinePass π => t.state.life = s.life)
    (fun n t ht => patient_visitNode (p := p) (g := g) hlife n t ht) (CallGraph.nodes g)
    { state := s, budget } rfl
  revert hscan
  unfold pass
  rcases scan (visitNode p g) (CallGraph.nodes g) { state := s, budget } with ⟨ended, r⟩
  intro hscan
  cases ended with
  | none => exact ⟨hscan.1, fun e he => by cases he⟩
  | some e => exact hscan

/-- The loop does nothing to a refiner but passes and preparations, and if the caller
    waits none of them fails. The induction is on the passes that are left. Each round
    becomes two events, the last one becomes one or two. -/
theorem patient_runFrom (left pass : Nat) (out : Outcome) {s : PassState Refiner π}
    (hlife : s.life = .unbounded) :
    (Refine.runFrom (query p g) left pass out s).2.1 = none ∧
      ∃ es : List Event,
        (Refine.runFrom (query p g) left pass out s).2.2 = es.foldl (after p g) s := by
  induction left generalizing pass out s with
  | zero => exact ⟨rfl, [], rfl⟩
  | succ left ih =>
      have hpoll : s.life.poll.1 = none := by
        rw [hlife]
        rfl
      let budget := Refine.budgetOf s pass
      have hlooked : Refine.looked s = { s with life := .unbounded } := by
        rw [Refine.looked, hlife]
        rfl
      rcases hq : query p g pass budget (Refine.looked s) with ⟨⟨satisfied, error⟩, s'⟩
      have hafter : after p g s (.query pass budget .unbounded) = s' := by
        rw [after, ← hlooked, hq]
      -- What a pass does for such a caller is known, so its answer is one of three.
      have hends : s'.life = .unbounded ∧ ∀ e, error = some e → e = .outOfBudget := by
        have hpass := patient_pass (p := p) (g := g) budget (s := Refine.looked s)
          (by rw [hlooked]; rfl)
        rw [hlooked] at hpass hq
        have hanswer := congrArg Prod.fst hq
        have hstate := congrArg Prod.snd hq
        change (Refiner.pass p g budget _).1 = _ at hanswer
        change (Refiner.pass p g budget _).2.2 = _ at hstate
        rw [hanswer, hstate] at hpass
        exact hpass
      -- A pass that settled nothing is followed by a preparation, and perhaps by more passes.
      have hdraw : ∀ draw : Refine.Draw,
          query p g pass budget (Refine.looked s) = (draw.answer, s') →
          (Refine.runFrom (query p g) (left + 1) pass out s).2.1 = none ∧
            ∃ es : List Event,
              (Refine.runFrom (query p g) (left + 1) pass out s).2.2 = es.foldl (after p g) s := by
        intro draw hq
        have hprepared : after p g s' .nextPass = Refine.prepared s' := rfl
        rw [Refine.runFrom_of_draw hpoll hq]
        split
        · rcases ih (pass + 1) (Refine.counted out draw) (s := Refine.prepared s') hends.1 with
            ⟨hfine, es, hes⟩
          refine ⟨hfine, .query pass budget .unbounded :: .nextPass :: es, ?_⟩
          rw [List.foldl_cons, List.foldl_cons, hafter, hprepared]
          exact hes
        · refine ⟨rfl, [.query pass budget .unbounded, .nextPass], ?_⟩
          rw [List.foldl_cons, List.foldl_cons, hafter, hprepared]
          rfl
      cases error with
      | some e =>
          rw [hends.2 e rfl] at hq
          exact hdraw (.outOfBudget satisfied) hq
      | none =>
          cases satisfied with
          | false => exact hdraw .unsatisfied hq
          | true =>
              rw [Refine.runFrom_of_success hpoll hq]
              refine ⟨rfl, [.query pass budget .unbounded], ?_⟩
              rw [List.foldl_cons, hafter]
              rfl

/-- Refinement for a caller that waits does not fail, and leaves a refiner as some
    passes and preparations leave it. So all that is known of such refiners applies to
    the result of a run. -/
theorem patient_run (p : Program) (g : G) (policy : π) :
    (Refine.run (query p g) { policy, life := .unbounded, query := {} }).2.1 = none ∧
      ∃ es, (Refine.run (query p g) { policy, life := .unbounded, query := {} }).2.2 =
        afterAll p g policy es :=
  patient_runFrom _ 0 {} rfl

end Refiner

namespace Analysis

/-! ## Calls that do not stand -/

/-- Variable type analysis speaks against a call: some site carries it, and each site
    that does chooses among overrides and is an instruction for which the analysis lists
    no such callee. -/
def Refuted (p : Program) (g : Graph) (a b : Node) : Prop :=
  (∃ site, b ∈ g.targets a site) ∧ ∀ site, b ∈ g.targets a site →
    (site.kind = .virtual ∨ site.kind = .interface) ∧
    ∃ caller callee i position, a.unit.function? = some caller ∧
      b.unit.function? = some callee ∧ p.siteInstruction? caller site.pc = some (i, position) ∧
      i.operation.isCall ∧ p.Refutes caller position callee

/-- Whatever passes and preparations there were, a hidden edge is refuted. It has a
    site, and all its sites were narrowed to targets without the callee. Narrowing
    leaves a target out only if the analysis does not list it. -/
theorem refuted_of_hides {p : Program} {g : Graph} (hg : g.WellFormed) {policy : Policy}
    {es : List Refiner.Event} {i j : Int}
    (h : ((Refiner.afterAll p g policy es).query.overlay g).hides i j) :
    ∃ a b, a.id = i ∧ b.id = j ∧ g.hasEdge a b ∧ Refuted p g a b := by
  rcases Refiner.hides_overlay.1 h with ⟨⟨a, b⟩, hedge, hhides, hsrc, hdst⟩
  rcases Refiner.hides_iff.1 hhides with ⟨hsome, hall⟩
  rcases List.exists_mem_of_ne_nil _ hsome with ⟨site₀, hsite₀⟩
  refine ⟨a, b, hsrc, hdst, (hg.lawful.mem_edges.1 hedge).2.2,
    ⟨site₀, hg.lawful.mem_sitesBetween.1 hsite₀⟩, fun site hsite => ?_⟩
  rcases (Refiner.narrowed_iff hg.lawful hsite).1
      (hall site (hg.lawful.mem_sitesBetween.2 hsite)) with
    ⟨caller, callee, i, position, hcaller, hcallee, hadmitted, href⟩
  rcases hadmitted.exists_admits with ⟨_, hadmits⟩
  exact ⟨Dispatch.isOverriding_iff.1 hadmits.overriding, caller, callee, i, position, hcaller,
    hcallee, hadmits.instruction, hadmits.call, href⟩

/-! ## Runs -/

/-- Why there will be no result: no entrypoints, no such policy, or a negative depth. -/
def refusal (project : Project) (p : Program) (s : Settings) : Option AnalysisError :=
  if (p.entrypoints project).isEmpty then some (.noEntrypoints project.modulePath)
  else
    match Policy.byName s.policy s.includes s.excludes with
    | .error e => some (.policy e)
    | .ok _ =>
      if s.pruneDepth < 0 then some (.prune (.negativeDepth s.pruneDepth)) else none

/-- What the result of a run is like. -/
structure Correct (project : Project) (p : Program) (s : Settings) (a : Analysis) : Prop where
  /-- The graph is that of the closure, which has read everything. -/
  closure_eq : a.closure =
    (p.closureOf project (p.entrypoints project) 0 s.applicationOnly .unbounded).1
  worklist_eq : a.closure.worklist = []
  graph_eq : a.graph = a.closure.graph.freeze
  obtainable : a.graph.Obtainable
  /-- Its ordinary nodes are functions of the program with code. -/
  hasCode : ∀ n, a.graph.contains n → n.kind = .ordinary →
    ∃ f, n.unit.function? = some f ∧ f < p.functions.size ∧ (p.function f).hasBody
  /-- Only refuted calls are hidden. -/
  refuted : ∀ i j, a.overlay.hides i j →
    ∃ x y, x.id = i ∧ y.id = j ∧ a.graph.hasEdge x y ∧ Refuted p a.graph x y
  /-- The view shows what is kept and not hidden, and is connected from its root. -/
  view_eq : a.view = View.of a.graph a.keep a.overlay
  connected : Prune.KeepsConnected a.graph a.overlay a.keep
  /-- Everything near the application is kept, and what is kept leads there. -/
  keepsPaths : Prune.KeepsPaths (View.refined a.graph a.overlay)
    (KeepPolicy.application (p.loader project)) s.pruneDepth.toNat a.keep

section Run

variable (project : Project) (p : Program) (s : Settings)

/-- What is pruned from a refined view of the frozen graph is correct, if only refuted calls are
    hidden. It does not matter who has hidden them. -/
theorem correct_of_pruned {c : Closure World} (refiner : Refiner) (outcome : Outcome)
    {hidden : Overlay} {keep : IdSet}
    (hc : p.closureOf project (p.entrypoints project) 0 s.applicationOnly .unbounded = (c, none))
    (hhidden : ∀ i j, hidden.hides i j →
      ∃ x y, x.id = i ∧ y.id = j ∧ c.graph.freeze.hasEdge x y ∧ Refuted p c.graph.freeze x y)
    (hdepth : 0 ≤ s.pruneDepth)
    (hok : Prune.findNodes (View.refined c.graph.freeze hidden)
      (KeepPolicy.application (p.loader project)) s.pruneDepth .unbounded = .ok keep) :
    Correct project p s
      { project, program := p, closure := c, graph := c.graph.freeze, refiner, outcome
        overlay := hidden, keep, view := View.of c.graph.freeze keep hidden } := by
  have horderly := Program.orderly_closureOf p project (p.entrypoints project) 0 s.applicationOnly
    .unbounded
  have hwhole := Program.closureOf_of_unbounded p project (p.entrypoints project) 0
    s.applicationOnly .unbounded rfl
  -- The closure for a caller that waits has read everything, and every node has code.
  have hcode := fun n => Program.hasCode_of_contains p project (p.entrypoints project) 0
    s.applicationOnly .unbounded (n := n)
  rw [hc] at horderly hwhole hcode
  have hob : c.graph.freeze.Obtainable := horderly.obtainable.attempt (e := .freeze) rfl
  have hview : CallGraph.Lawful (View.refined c.graph.freeze hidden) :=
    View.lawful hob.wellFormed.lawful
  have hlife : Lifetime.unbounded.polls = none := rfl
  -- The traversal gives one set of numbers, which is connected and keeps what it should.
  rcases Prune.keepsConnected_refined hob.wellFormed hidden
    (KeepPolicy.application (p.loader project)) hdepth hlife with ⟨keep₁, hok₁, hconnected⟩
  rcases Prune.keepsPaths_findNodes hview (KeepPolicy.application (p.loader project)) hdepth hlife
    with ⟨keep₂, hok₂, hpaths⟩
  obtain rfl : keep = keep₁ := Except.ok.inj (hok.symm.trans hok₁)
  obtain rfl : keep = keep₂ := Except.ok.inj (hok.symm.trans hok₂)
  exact { closure_eq := by rw [hc]
          worklist_eq := hwhole.2
          graph_eq := rfl
          obtainable := hob
          hasCode := hcode
          refuted := hhidden
          view_eq := rfl
          connected := hconnected
          keepsPaths := hpaths }

/-- Once there are entrypoints and a policy, no stage can fail but the last, and that
    only over a negative depth. The stages are run one after the other, each on the
    result of the one before: closure, refinement, traversal. -/
theorem run_of_policy {policy : Policy} (hstarts : (p.entrypoints project).isEmpty = false)
    (hpolicy : Policy.byName s.policy s.includes s.excludes = .ok policy) :
    (s.pruneDepth < 0 → run project p s = .error (.prune (.negativeDepth s.pruneDepth))) ∧
      (0 ≤ s.pruneDepth → ∃ a, run project p s = .ok a ∧ Correct project p s a) := by
  -- The closure ends because there is nothing left to read.
  have hended := (Program.closureOf_of_unbounded p project (p.entrypoints project) 0
    s.applicationOnly .unbounded rfl).1
  rcases hc : p.closureOf project (p.entrypoints project) 0 s.applicationOnly .unbounded
    with ⟨c, ended⟩
  rw [hc] at hended
  obtain rfl : ended = none := hended
  -- Refinement does not fail, and the refiner is one that is known.
  have hpatient := Refiner.patient_run p c.graph.freeze policy
  rcases hrun : Refine.run (Refiner.query p c.graph.freeze)
    { policy, life := .unbounded, query := {} } with ⟨outcome, failed, state⟩
  rw [hrun] at hpatient
  rcases hpatient with ⟨hfine, es, hstate⟩
  obtain rfl : failed = none := hfine
  obtain rfl : state = Refiner.afterAll p c.graph.freeze policy es := hstate
  let hidden := (Refiner.afterAll p c.graph.freeze policy es).query.overlay c.graph.freeze
  let accept := KeepPolicy.application (p.loader project)
  constructor
  · intro hdepth
    have hprune : Prune.findNodes (View.refined c.graph.freeze hidden) accept s.pruneDepth
        .unbounded = .error (.negativeDepth s.pruneDepth) := by
      rw [Prune.findNodes, if_pos hdepth]
    simp only [run, hstarts, hc, hpolicy, hrun, Bool.false_eq_true, if_false, hidden, accept]
      at hprune ⊢
    rw [hprune]
  · intro hdepth
    have horderly := Program.orderly_closureOf p project (p.entrypoints project) 0
      s.applicationOnly .unbounded
    rw [hc] at horderly
    have hob : c.graph.freeze.Obtainable := horderly.obtainable.attempt (e := .freeze) rfl
    have hlife : Lifetime.unbounded.polls = none := rfl
    rcases Prune.keepsConnected_refined hob.wellFormed hidden accept hdepth hlife with
      ⟨keep, hprune, _⟩
    have hcorrect := correct_of_pruned project p s
      (Refiner.afterAll p c.graph.freeze policy es).query outcome hc
      (fun i j => refuted_of_hides hob.wellFormed) hdepth hprune
    refine ⟨_, ?_, hcorrect⟩
    simp only [run, hstarts, hc, hpolicy, hrun, Bool.false_eq_true, if_false]
    simp only [hidden, accept] at hprune
    rw [hprune]

/-- A run is refused for a reason that can be told before it, or it gives a correct result. There
    is no other outcome, for any program, project and settings. -/
theorem run_correct :
    match refusal project p s with
    | some e => run project p s = .error e
    | none => ∃ a, run project p s = .ok a ∧ Correct project p s a := by
  have hwhole := Program.closureOf_of_unbounded p project (p.entrypoints project) 0
    s.applicationOnly .unbounded rfl
  cases hstarts : (p.entrypoints project).isEmpty with
  | true => simp only [refusal, run, hstarts, if_true]
  | false =>
      -- The closure is built before the policy is looked up, but it cannot fail.
      cases hpolicy : Policy.byName s.policy s.includes s.excludes with
      | error e =>
          rcases hc : p.closureOf project (p.entrypoints project) 0 s.applicationOnly .unbounded
            with ⟨c, ended⟩
          rw [hc] at hwhole
          obtain rfl : ended = none := hwhole.1
          simp only [refusal, run, hstarts, hc, hpolicy, Bool.false_eq_true, if_false]
      | ok policy =>
          rcases run_of_policy project p s hstarts hpolicy with ⟨hnegative, hdone⟩
          simp only [refusal, hstarts, hpolicy, Bool.false_eq_true, if_false]
          by_cases hdepth : s.pruneDepth < 0
          · rw [if_pos hdepth]
            exact hnegative hdepth
          · rw [if_neg hdepth]
            exact hdone (by omega)

end Run

/-! ## The application -/

/-- A call that is not refuted is not hidden. Nodes of the graph are told apart by their
    numbers, so the call that a hidden pair of numbers stands for is this one. -/
theorem Correct.spares {project : Project} {p : Program} {s : Settings} {a : Analysis}
    (ha : Correct project p s a) {x y : Node} (hedge : a.graph.hasEdge x y)
    (hstands : ¬Refuted p a.graph x y) : a.graph.Spares a.overlay x y := by
  refine ⟨hedge, ?_⟩
  by_contra hhides
  rcases ha.refuted x.id y.id (by simpa using hhides) with ⟨x', y', hx, hy, hedge', href⟩
  rcases Graph.hasEdge_iff.1 hedge with ⟨hxin, hyin, _⟩
  rcases Graph.hasEdge_iff.1 hedge' with ⟨hxin', hyin', _⟩
  rw [Graph.eq_of_contains hxin' hxin hx, Graph.eq_of_contains hyin' hyin hy] at href
  exact hstands href

/-- No function of the application is lost. If calls that variable type analysis does not speak
    against lead to one from the root, the view of the analysis has it, and a search through the
    view from its root finds it. Refinement hides no such call, and pruning keeps what such calls
    lead to, so neither stage undoes what the closure found. -/
theorem application_kept {project : Project} {p : Program} {s : Settings} {a : Analysis}
    (h : run project p s = .ok a) {root n : Node} (hroot : CallGraph.fakeRoot a.graph = some root)
    (hpath : Relation.ReflTransGen
      (fun x y => a.graph.hasEdge x y ∧ ¬Refuted p a.graph x y) root n)
    (hord : n.kind = .ordinary) (happ : p.loader project n.unit = .application) :
    a.view.contains n ∧ n.id ∈ CallGraph.reachable a.view [CallGraph.fakeRoot a.view] := by
  have ha : Correct project p s a := by
    have hcases := run_correct project p s
    cases hrefusal : refusal project p s with
    | some e =>
        rw [hrefusal, h] at hcases
        cases hcases
    | none =>
        rw [hrefusal, h] at hcases
        rcases hcases with ⟨a', ha', hcorrect⟩
        rw [Except.ok.inj ha']
        exact hcorrect
  -- Refinement: no call of the path is hidden.
  have hwf := ha.obtainable.wellFormed
  have hspares : Relation.ReflTransGen (a.graph.Spares a.overlay) root n :=
    Relation.ReflTransGen.mono (fun x y hxy => ha.spares hxy.1 hxy.2) _ _ hpath
  have hn : a.graph.contains n := hwf.toRooted.contains_of_spares (Or.inl hroot) hspares
  -- The refined view has the whole path, and the traversal goes over that view.
  have hclosed : (View.refined a.graph a.overlay).Closed := View.closed_refined hwf
  have hsees : (View.refined a.graph a.overlay).contains root :=
    hclosed.contains_root hwf.toRooted (Or.inl hroot)
  have hled : CallGraph.LeadsTo (View.refined a.graph a.overlay) root n := by
    rw [hclosed.leadsTo_iff hwf.lawful hsees]
    change Relation.ReflTransGen (a.graph.Spares a.overlay.trim) root n
    rw [Graph.spares_trim]
    exact hspares
  have hrefinedRoot : CallGraph.fakeRoot (View.refined a.graph a.overlay) = some root :=
    (hclosed.roots_eq hwf.toRooted).1.trans hroot
  have haccept : KeepPolicy.application (p.loader project) n := by
    simp [KeepPolicy.application, hord, happ]
  have hkept : n.id ∈ a.keep :=
    ha.keepsPaths.near n ⟨n, ⟨⟨root, hrefinedRoot, hled⟩, haccept⟩, .here _ n⟩
  rw [ha.view_eq, ha.connected.reachable_eq]
  exact ⟨View.contains_of.2 ⟨hkept, hn⟩, hkept⟩

end Analysis

end CallAtlas
