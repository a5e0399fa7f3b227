import CallAtlas.Proofs.Closure.Step
import Mathlib.Order.Bounds.Defs

/-!
# The Closure is Exact

The closure of a list of entrypoints is neither too small nor too large: the units of
its ordinary nodes are the least set that the entrypoints, the calls and the
initializers allow, and each node has exactly the sites and targets that its code
asks for.

The argument has three parts. The invariant holds at the start and survives the
reading of a node, hence it holds along the run. The run ends with nothing left to
read, because each node read and each node waiting belongs to a different unit that
the hierarchy mentions, and the steps suffice for all of these. And when nothing is
left to read, the invariant says that every node is finished.

## Main definitions

* `Closure.units`: The units of the ordinary nodes of a graph.

## Theorems

* `Closure.reading_start`: The invariant holds at the start.
* `Closure.Sound.live_le`: There are no more nodes than units, and two roots.
* `Closure.Reading.run`: A run that has steps enough ends with nothing left to read.
* `Closure.Reading.isLeast_units`: The units of a finished closure.
* `Closure.Reading.mem_targets`: The targets of a finished node.
* `Closure.build_exact`: All of this for the closure of a list of entrypoints.
-/

namespace CallAtlas

namespace Closure

open CallAtlas.Graph (rootId clinitId)

variable {σ : Type} {a : Answers} {only : Bool} {entries : List CodeUnit} {h : Hierarchy σ}

/-- All nodes have the same context, so a unit has one node, and that is the one that a
    lookup finds. -/
theorem Sound.lookup_eq {g : Graph} (hg : Sound a only entries g) {n : Node} (hn : g.contains n) :
    g.lookup n.unit .everywhere = some n :=
  hg.wellFormed.lookup_of_everywhere hg.everywhere hn

/-! ## The start -/

theorem not_ordinary_fresh {serial : Nat} {n : Node} (hn : (Graph.fresh serial).contains n) :
    n.kind ≠ .ordinary := by
  rcases Graph.contains_fresh.1 hn with rfl | rfl
  · simp
  · simp

/-- A fresh graph has nothing that would need a reason. -/
theorem sound_fresh (serial : Nat) : Sound a only entries (Graph.fresh serial) := by
  refine ⟨Graph.obtainable_fresh serial, rfl, ?_, fun hn hk => absurd hk (not_ordinary_fresh hn),
    fun hn hk => absurd hk (not_ordinary_fresh hn),
    fun _ hat => absurd hat Graph.not_attributes_fresh,
    fun hcall => absurd hcall Graph.not_calls_fresh, ?_⟩
  · intro n hn
    rcases Graph.contains_fresh.1 hn with rfl | rfl <;> rfl
  · intro d
    exact ⟨fun hd => absurd hd List.not_mem_nil, fun hcall => absurd hcall Graph.not_calls_fresh⟩

/-- The invariant holds at the start. The root waits with its sites and without targets,
    and the other synthetic node is never read. -/
theorem reading_start (a : Answers) (only : Bool) (world : σ) (serial : Nat)
    (entries : List CodeUnit) : Reading a only entries none (start world serial entries) := by
  let g := (Graph.fresh serial).recordSites rootId (Answers.entrySites entries)
  let root : Node := ⟨serial, rootId, .fakeRoot, .everywhere, .fakeRoot⟩
  have hgraph : (start world serial entries).graph = g := by
    simp only [start, g, Graph.recordSites, Answers.entrySites, List.foldl_map]
  have hwf := Graph.wellFormed_fresh serial
  have hlive : (Graph.fresh serial).Live rootId := by
    rw [Graph.live_iff_node?, hwf.root]
    rfl
  have hkeeps : (Graph.fresh serial).Keeps g := Graph.keeps_recordSites rootId _ _
  have hsound : Sound a only entries g := (sound_fresh serial).congr
    ((Graph.obtainable_fresh serial).recordSites _ rfl hlive) hkeeps Graph.attributes_recordSites
    Graph.calls_recordSites
  have hsites := Graph.sitesAt_recordSites (Answers.entrySites entries) [] hwf hlive rfl
  have hroot : g.node? rootId = some root := hkeeps.node? rootId
  have hworklist : (start world serial entries).worklist = [root] := by
    change ((start world serial entries).graph.node? rootId).toList = _
    rw [hgraph, hroot]
    rfl
  -- There are only the two roots, and of these one waits.
  have hnodes : ∀ {n}, g.contains n → n = root ∨ n.kind = .fakeWorldClinit := by
    intro n hn
    rcases Graph.contains_fresh.1 (hkeeps.contains_iff.1 hn) with hn | rfl
    · exact Or.inl hn
    · exact Or.inr rfl
  refine ⟨⟨?_, ?_, ?_, ?_, by simp, ?_, ?_, ?_, ?_, ?_⟩, ?_⟩
  · rw [hgraph]
    exact hsound
  · intro t k us hus
    exact absurd hus (by simp [start])
  · intro i site o ho
    exact absurd ho (by simp [start])
  · rw [hgraph, hsites, List.nil_append, eraseDups_of_nodup (Answers.entrySites_nodup entries)]
  · rw [hworklist]
    exact List.nodup_singleton root
  · intro n hn
    rw [hworklist, List.mem_singleton] at hn
    rw [hgraph, hn]
    exact ⟨Graph.contains_iff.2 hroot, by simp [root], by simp⟩
  · intro n hn hk
    rw [hworklist, List.mem_singleton] at hn
    rw [hn] at hk
    exact absurd hk (by simp [root])
  · intro n hn hk hwait _
    rw [hgraph] at hn
    rw [hworklist, List.mem_singleton] at hwait
    exact absurd (hnodes hn) (not_or.2 ⟨hwait, hk⟩)
  · rw [hworklist, hgraph, hkeeps.live]
    rfl
  · intro n hn hk
    rw [hgraph] at hn
    exact absurd hk (not_ordinary_fresh (hkeeps.contains_iff.1 hn))

/-! ## The run -/

/-- There are no more nodes than units that the hierarchy mentions, and two roots. -/
theorem Sound.live_le {g : Graph} (hg : Sound a only entries g) {bound : Nat}
    (hok : a.Admissible bound) : g.live ≤ bound + 2 :=
  hg.wellFormed.live_le_of_everywhere hg.everywhere hg.mentioned hok.finite hok.ncard_le

/-- A run that has steps enough for all units ends with nothing left to read. The
    induction is on the steps. When there are none left, as many nodes were read as
    there can be, and then none can wait. -/
theorem Reading.run (ha : a.GivenBy h) (hok : a.Admissible h.bound) {life : Lifetime}
    (hlife : life.polls = none) :
    ∀ (steps : Nat) {c : Closure σ}, Reading a only entries none c → h.bound < steps + c.pops →
      (Closure.run h only steps life c).2 = none ∧
        (Closure.run h only steps life c).1.worklist = [] ∧
        Reading a only entries none (Closure.run h only steps life c).1 := by
  intro steps
  induction steps with
  | zero =>
      intro c hc hsteps
      -- Each node that was read and each that waits is one of those that there can be.
      have hlive := hc.live_le hok
      rw [hc.balance] at hlive
      have hempty : c.worklist.length = 0 := by omega
      exact ⟨rfl, List.eq_nil_of_length_eq_zero hempty, hc⟩
  | succ steps ih =>
      intro c hc hsteps
      unfold Closure.run
      cases hw : c.worklist with
      | nil => exact ⟨rfl, hw, hc⟩
      | cons n rest =>
          rcases hc.step ha hok hw with ⟨hnext, hpops⟩
          rw [Lifetime.poll_of_unbounded hlife]
          exact ih hnext (by rw [hpops]; omega)

/-- Further steps change nothing once nothing is left to read. The induction is on the
    steps that were enough: both runs make the same first step, for a caller without a
    limit, and go on with one step fewer. -/
theorem run_add_of_done {life : Lifetime} (hlife : life.polls = none) (more : Nat) :
    ∀ (steps : Nat) (c : Closure σ), (Closure.run h only steps life c).1.worklist = [] →
      Closure.run h only (steps + more) life c = Closure.run h only steps life c := by
  intro steps
  induction steps with
  | zero =>
      intro c hdone
      change c.worklist = [] at hdone
      -- No step was made, so the worklist was empty before.
      cases more with
      | zero => rfl
      | succ k =>
          have hstop : Closure.run h only (k + 1) life c = (c, none) := by
            unfold Closure.run
            rw [hdone]
          rw [Nat.zero_add, hstop]
          rfl
  | succ steps ih =>
      intro c hdone
      rw [Nat.add_right_comm]
      unfold Closure.run at hdone ⊢
      cases hw : c.worklist with
      | nil => rfl
      | cons n rest =>
          rw [hw] at hdone
          simp only [Lifetime.poll_of_unbounded hlife] at hdone ⊢
          -- With no limit on the looks the first step is the same in both runs.
          exact ih _ hdone

/-! ## When nothing is left to read -/

/-- The units of the ordinary nodes of a graph. -/
def units (g : Graph) : Set CodeUnit := {u | ∃ n, g.contains n ∧ n.kind = .ordinary ∧ n.unit = u}

section Done

variable {c : Closure σ} (hc : Reading a only entries none c) (hdone : c.worklist = [])
include hc hdone

theorem Reading.finished_of_done {n : Node} (hn : c.graph.contains n)
    (hk : n.kind ≠ .fakeWorldClinit) : Finished a only entries c.graph n :=
  hc.finished hn hk (by rw [hdone]; exact List.not_mem_nil) (by simp)

/-- The units of a finished closure are closed: whatever its nodes call has a node, and
    so has every initializer. -/
theorem Reading.closed_units {bound : Nat} (hok : a.Admissible bound) :
    a.Closed only entries (units c.graph) := by
  -- A candidate of a site in the code of a finished node has an ordinary node.
  have hcandidate : ∀ {n : Node} {site : CallSite} {v : CodeUnit}, c.graph.contains n →
      n.kind ≠ .fakeWorldClinit → site ∈ a.code entries n → a.Candidate only n.unit site v →
      v ∈ units c.graph := by
    intro n site v hn hk hsite hv
    rcases (hc.finished_of_done hdone hn hk).linked site hsite v hv with ⟨m, hm, rfl, _⟩
    exact ⟨m, hm, hc.ordinary hok hm hv.mentions, rfl⟩
  refine ⟨?_, ?_, ?_⟩
  · intro e he v hv hrel
    rcases Answers.exists_entrySite he with ⟨site, hsite, htarget, hkind⟩
    have hroot : c.graph.contains ⟨c.graph.serial, rootId, .fakeRoot, .everywhere, .fakeRoot⟩ :=
      Graph.contains_iff.2 hc.wellFormed.root
    refine hcandidate hroot (by simp) hsite ⟨hrel, ?_⟩
    rw [hkind, htarget]
    exact hv
  · rintro _ ⟨n, hn, hk, rfl⟩ site hsite v hv
    refine hcandidate hn (by simp [hk]) ?_ hv
    rw [Answers.code, hk]
    exact hsite
  · rintro _ ⟨n, hn, hk, rfl⟩ v hv
    rcases hc.initialized hn hk v hv with ⟨m, hm, rfl⟩
    exact ⟨m, hm, hc.ordinary hok hm (.initializer hv), rfl⟩

/-- The units of a finished closure are the least closed set. They are closed because
    everything was read, and they are in every closed set because nothing was made
    without a reason. -/
theorem Reading.isLeast_units {bound : Nat} (hok : a.Admissible bound) :
    IsLeast {set | a.Closed only entries set} (units c.graph) := by
  refine ⟨hc.closed_units hdone hok, ?_⟩
  rintro set hset _ ⟨n, hn, hk, rfl⟩
  exact hc.needed hn hk set hset

/-- A finished node has the sites of its code, without repetitions. -/
theorem Reading.callSites_eq {n : Node} (hn : c.graph.contains n) (hk : n.kind ≠ .fakeWorldClinit) :
    c.graph.callSites n = (a.code entries n).eraseDups := by
  rw [Graph.callSites_eq hn]
  exact (hc.finished_of_done hdone hn hk).sites

/-- The targets of a site are the nodes of its candidates. From left to right this is
    soundness, which holds throughout a run, and from right to left the node has to be
    finished. -/
theorem Reading.mem_targets {n : Node} (hn : c.graph.contains n) (hk : n.kind ≠ .fakeWorldClinit)
    {site : CallSite} {m : Node} :
    m ∈ c.graph.targets n site ↔ site ∈ a.code entries n ∧
      ∃ v, a.Candidate only n.unit site v ∧ c.graph.lookup v .everywhere = some m := by
  rw [hc.wellFormed.mem_targets]
  constructor
  · -- Each target has a reason, and only the reasons of the fake world-clinit node are no
    -- calls.
    rintro ⟨_, hm, hat⟩
    rcases hc.due hn hat with ⟨m', hm', hid, hdue⟩
    rw [Graph.eq_of_contains hm' hm hid] at hdue
    unfold Due at hdue
    split at hdue
    · next hclinit => exact absurd hclinit hk
    · exact ⟨hdue.1, m.unit, hdue.2, hc.lookup_eq hm⟩
  · rintro ⟨hsite, v, hv, hlookup⟩
    rcases (hc.finished_of_done hdone hn hk).linked site hsite v hv with ⟨m', hm', rfl, hat⟩
    rw [hc.lookup_eq hm', Option.some.injEq] at hlookup
    rw [← hlookup]
    exact ⟨hn, hm', hat⟩

/-- The root has one site for each entrypoint, even if an entrypoint is listed twice. -/
theorem Reading.callSites_root {n : Node} (hn : c.graph.contains n) (hroot : n.kind = .fakeRoot) :
    c.graph.callSites n = Answers.entrySites entries := by
  rw [hc.callSites_eq hdone hn (by simp [hroot]), Answers.code, hroot]
  exact eraseDups_of_nodup (Answers.entrySites_nodup entries)

/-- The targets of the root are what the entrypoints name. -/
theorem Reading.mem_targets_root {n : Node} (hn : c.graph.contains n) (hroot : n.kind = .fakeRoot)
    {site : CallSite} {m : Node} :
    m ∈ c.graph.targets n site ↔ site ∈ Answers.entrySites entries ∧
      ∃ v, a.single site.target = some v ∧ a.Relevant only v ∧
        c.graph.lookup v .everywhere = some m := by
  rw [hc.mem_targets hdone hn (by simp [hroot]), Answers.code, hroot]
  refine and_congr_right fun hsite => ?_
  rcases Answers.mem_entrySites hsite with ⟨e, _, _, hkind⟩
  simp only [Answers.Candidate, hkind, and_assoc, and_left_comm]

end Done

/-- The callees of a node are the targets of its sites. No edge is there for another reason. -/
theorem Sound.mem_succs {g : Graph} (hg : Sound a only entries g) {n m : Node} :
    m ∈ g.succs n ↔ ∃ site ∈ g.callSites n, m ∈ g.targets n site := by
  have hwf := hg.wellFormed
  simp only [hwf.mem_succs, hwf.mem_targets]
  constructor
  · rintro ⟨hn, hm, hcalls⟩
    rcases hg.attributed hcalls with ⟨site, hat⟩
    refine ⟨site, ?_, hn, hm, hat⟩
    rw [Graph.callSites_eq hn]
    exact hwf.mem_sitesAt_of_attributes hat
  · rintro ⟨site, _, hn, hm, hat⟩
    exact ⟨hn, hm, hwf.calls_of_attributes hat⟩

/-- What the root calls are the entrypoints. -/
theorem Sound.mem_entrypoints {g : Graph} (hg : Sound a only entries g) {n m : Node}
    (hn : g.contains n) (hroot : n.kind = .fakeRoot) :
    m ∈ g.succs n ↔ m ∈ CallGraph.entrypoints g := by
  have hwf := hg.wellFormed
  rw [hwf.mem_succs, (hwf.kind_eq_fakeRoot_iff hn).1 hroot]
  change _ ↔ m ∈ g.nodesWith g.entrypoints
  rw [hwf.mem_nodesWith, hg.entered]
  simp only [hn, true_and]
  exact and_comm

/-- What the fake world-clinit node calls are initializers of classes that have a node. -/
theorem Sound.initializer_of_mem_succs {g : Graph} (hg : Sound a only entries g) {n m : Node}
    (hclinit : n.kind = .fakeWorldClinit) (hm : m ∈ g.succs n) :
    ∃ u ∈ units g, a.initializer u = some m.unit := by
  rcases hg.wellFormed.mem_succs.1 hm with ⟨hn, hm, hcalls⟩
  rcases hg.attributed hcalls with ⟨site, hat⟩
  rcases hg.due hn hat with ⟨m', hm', hid, hdue⟩
  rw [Graph.eq_of_contains hm' hm hid, Due, hclinit] at hdue
  rcases hdue with ⟨_, _, k, hk, hord, hinit⟩
  exact ⟨k.unit, ⟨k, hk, hord, rfl⟩, hinit⟩

/-- The closure of a list of entrypoints ends by itself, its units are the least closed
    set, and its nodes have the sites and targets that their code asks for. This says
    which graph is built, up to the numbers of the nodes, by the answers of the
    hierarchy alone: neither the order in which nodes are read nor the caches can be
    told from the result. -/
theorem build_exact (ha : a.GivenBy h) (hok : a.Admissible h.bound) (world : σ) (serial : Nat)
    (only : Bool) (entries : List CodeUnit) {life : Lifetime} (hlife : life.polls = none) :
    let r := build h world serial only entries life
    let g := r.1.graph
    -- The run is not cut short, leaves nothing to read, makes edits that are accepted,
    -- and comes out the same with more steps.
    (r.2 = none ∧ r.1.worklist = [] ∧ g.Obtainable ∧
      ∀ steps, h.bound < steps → run h only steps life (start world serial entries) = r) ∧
    -- The units are the least closed set, and each has one node.
    (IsLeast {set | a.Closed only entries set}
        {u | ∃ n, g.contains n ∧ n.kind = .ordinary ∧ n.unit = u} ∧
      ∀ n m, g.contains n → g.contains m → n.unit = m.unit → n = m) ∧
    -- An ordinary node has the sites of its unit, each with the nodes of its candidates,
    -- and calls these nodes and no others.
    (∀ n, g.contains n → n.kind = .ordinary →
      g.callSites n = (a.callSites n.unit).eraseDups ∧
      (∀ site m, m ∈ g.targets n site ↔ site ∈ a.callSites n.unit ∧
        ∃ v, a.Candidate only n.unit site v ∧ g.lookup v .everywhere = some m) ∧
      ∀ m, m ∈ g.succs n ↔ ∃ site ∈ g.callSites n, m ∈ g.targets n site) ∧
    -- The root has one site for each entrypoint, and calls the entrypoints of the graph.
    (∀ n, g.contains n → n.kind = .fakeRoot →
      g.callSites n = Answers.entrySites entries ∧
      (∀ site m, m ∈ g.targets n site ↔ site ∈ Answers.entrySites entries ∧
        ∃ v, a.single site.target = some v ∧ a.Relevant only v ∧
          g.lookup v .everywhere = some m) ∧
      ∀ m, m ∈ g.succs n ↔ m ∈ CallGraph.entrypoints g) ∧
    -- The fake world-clinit node calls initializers of classes that have a unit here.
    (∀ n, n.kind = .fakeWorldClinit → ∀ m ∈ g.succs n,
      ∃ u, (∃ k, g.contains k ∧ k.kind = .ordinary ∧ k.unit = u) ∧
        a.initializer u = some m.unit) := by
  intro r g
  have hsteps : h.bound < h.bound + 1 + (start world serial entries).pops :=
    Nat.lt_add_right _ (Nat.lt_succ_self _)
  rcases Reading.run ha hok hlife (h.bound + 1) (reading_start a only world serial entries) hsteps
    with ⟨hend, hdone, hr⟩
  have hmore : ∀ steps, h.bound < steps →
      run h only steps life (start world serial entries) = r := by
    intro steps hsteps
    have hadd := run_add_of_done hlife (steps - (h.bound + 1)) (h.bound + 1) _ hdone
    rw [Nat.add_sub_cancel' hsteps] at hadd
    exact hadd
  have honce : ∀ n m, g.contains n → g.contains m → n.unit = m.unit → n = m := by
    intro n m hn hm hunit
    have hlookup := hr.lookup_eq hn
    rw [hunit, hr.lookup_eq hm, Option.some.injEq] at hlookup
    exact hlookup.symm
  refine ⟨⟨hend, hdone, hr.obtainable, hmore⟩, ⟨hr.isLeast_units hdone hok, honce⟩, ?_, ?_,
    fun n hn m hm => hr.initializer_of_mem_succs hn hm⟩
  · intro n hn hord
    have hk : n.kind ≠ .fakeWorldClinit := by simp [hord]
    have hcode : a.code entries n = a.callSites n.unit := by rw [Answers.code, hord]
    rw [← hcode]
    exact ⟨hr.callSites_eq hdone hn hk, fun site m => hr.mem_targets hdone hn hk,
      fun m => hr.mem_succs⟩
  · intro n hn hroot
    exact ⟨hr.callSites_root hdone hn hroot, fun site m => hr.mem_targets_root hdone hn hroot,
      fun m => hr.mem_entrypoints hn hroot⟩

/-! ## A closure with a loop, an initializer and a function object -/

/-- The entrypoint dispatches to two shapes and makes a function object. The first shape
    calls the entrypoint again, and its class has an initializer. -/
def shapes : Answers where
  single r := if r = ⟨"app", "main", "()"⟩ then some (.named r) else none
  overrides r :=
    if r = ⟨"Shape", "area", "()"⟩ then
      [.named r, .named ⟨"Circle", "area", "()"⟩, .named ⟨"Square", "area", "()"⟩]
    else []
  isAbstract u := u = .named ⟨"Shape", "area", "()"⟩
  loader _ := .application
  initializer u :=
    if u.ref.owner = "Circle" then some (.named ⟨"Circle", "init", "()"⟩) else none
  callSites u :=
    if u.ref.name = "main" then
      [⟨0, ⟨"Shape", "area", "()"⟩, .virtual⟩, ⟨1, ⟨"Task", "run", "()"⟩, .dynamic⟩,
        ⟨0, ⟨"Shape", "area", "()"⟩, .virtual⟩]
    else if u.ref.owner = "Circle" then [⟨0, ⟨"app", "main", "()"⟩, .static⟩]
    else []
  wrapper u _ := if u.ref.name = "main" then some (.named ⟨"app", "task", "()"⟩) else none

/-- The shapes mention six units, none of them synthetic. -/
theorem shapes_admissible : shapes.Admissible 6 := by
  let all : Finset CodeUnit := {.named ⟨"app", "main", "()"⟩, .named ⟨"Shape", "area", "()"⟩,
    .named ⟨"Circle", "area", "()"⟩, .named ⟨"Square", "area", "()"⟩,
    .named ⟨"Circle", "init", "()"⟩, .named ⟨"app", "task", "()"⟩}
  have hall : ∀ {u}, shapes.Mentions u → u ∈ all := by
    intro u hu
    cases hu with
    | single hu =>
        simp only [shapes, Option.ite_none_right_eq_some, Option.some.injEq] at hu
        rcases hu with ⟨rfl, rfl⟩
        decide
    | overrides hu =>
        simp only [shapes] at hu
        split at hu
        · next hr =>
          subst hr
          simp only [List.mem_cons, List.not_mem_nil, or_false] at hu
          rcases hu with rfl | rfl | rfl <;> decide
        · exact absurd hu List.not_mem_nil
    | initializer hu =>
        simp only [shapes, Option.ite_none_right_eq_some, Option.some.injEq] at hu
        rcases hu with ⟨_, rfl⟩
        decide
    | wrapper hu =>
        simp only [shapes, Option.ite_none_right_eq_some, Option.some.injEq] at hu
        rcases hu with ⟨_, rfl⟩
        decide
  -- The one initializer has no other initializer than itself.
  refine Answers.admissible_of_finset all hall (by decide) (by decide) fun hi hj => ?_
  simp only [shapes, Option.ite_none_right_eq_some, Option.some.injEq] at hi hj
  rw [← hi.2, ← hj.2]

/-- The units of the shapes are found, the abstract one apart. -/
theorem build_exact_shapes :
    let g := (build (shapes.hierarchy 6) () 0 false [.named ⟨"app", "main", "()"⟩] .unbounded).1.graph
    (g.nodes.map fun n => n.unit.ref.owner ++ "." ++ n.unit.ref.name) =
      ["$synthetic.fakeRoot", "$synthetic.fakeWorldClinit", "app.main", "Circle.area",
        "Circle.init", "Square.area", "app.task"] ∧
    IsLeast {set | shapes.Closed false [.named ⟨"app", "main", "()"⟩] set}
      {u | ∃ n, g.contains n ∧ n.kind = .ordinary ∧ n.unit = u} :=
  ⟨by decide, (build_exact (shapes.givenBy_hierarchy 6) shapes_admissible () 0 false _ rfl).2.1.1⟩

end Closure

end CallAtlas
