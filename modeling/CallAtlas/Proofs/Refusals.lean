import CallAtlas.Proofs.Growth
import CallAtlas.Proofs.Lawful

/-!
# Refused Edits and Frozen Graphs

A checked edit gives back a graph or the reason for refusing, so a refused one has no
graph to give back and nothing could be said of what it leaves behind. Whoever holds a
graph and edits it where it stands has no such promise: the edit runs through checks
and writes, and what was written before a check failed stays written. `InPlace` makes
the edits in this way, and gives back a graph with every outcome. Only adding a call is
at risk. It records its site first and then adds its edge by the edit for edges, which
asks everything again. It is told the same as before, because recording a site changes
neither the nodes nor whether the graph is frozen.

A frozen graph refuses the edits of its structure before it looks at their arguments.
What is left are requests for nodes that are there already, and entrypoints.

## Main definitions

* `Graph.Edit.isStructural`: The edits that a frozen graph refuses at once.
* `Graph.Edit.arguments`: The nodes that an edit names, in the order of its checks.
* `InPlace.edit`: An edit of a graph where it stands.
* `InPlace.outcome`: The outcome of an edit that changes all or nothing.
* `Graph.EntersFurther`: Further entrypoints, and nothing else.

## Theorems

* `Graph.attempt_of_frozen`: A frozen graph refuses edits of its structure.
* `Graph.attempt_of_missing`: An edit that names a missing node is refused.
* `InPlace.run_edit`: An edit in place changes all or nothing.
* `Graph.EntersFurther.afterAll`: A frozen graph gets further entrypoints at most.
* `Graph.edits_all_or_nothing`: Refused edits and frozen graphs leave everything intact.
-/

namespace CallAtlas

namespace Graph

/-! ## What is refused -/

/-- The edits that a frozen graph refuses before it looks at their arguments. -/
def Edit.isStructural : Edit → Bool
  | .addEdge _ _ | .addSite _ _ | .addCall _ _ _ | .removeEdge _ _ | .removeNode _ => true
  | .findOrCreate _ _ | .registerEntrypoint _ | .freeze => false

/-- The nodes that an edit names, in the order in which it asks for them. -/
def Edit.arguments : Edit → List (Option Node)
  | .registerEntrypoint n | .addSite n _ | .removeNode n => [n]
  | .addEdge src dst | .addCall src _ dst | .removeEdge src dst => [src, dst]
  | .findOrCreate _ _ | .freeze => []

/-- Whether an argument is a node of the graph. -/
def has (g : Graph) (n : Option Node) : Bool := n.any g.contains

variable {g g' : Graph}

/-- An argument that is no node of the graph is named in the refusal. -/
theorem require_of_not_has {n : Option Node} (h : g.has n = false) :
    g.require n = .error (.nodeNotFound n) := by
  cases n with
  | none => rfl
  | some m =>
      have hslot : g.slotOf? m = none := by
        rw [has, Option.any_some, contains, Option.isSome_eq_false_iff, Option.isNone_iff_eq_none]
          at h
        exact h
      rw [require, Option.bind_some, hslot]

/-- An argument that is a node of the graph finds its slot. -/
theorem require_of_has {n : Option Node} (h : g.has n = true) :
    ∃ s, g.require n = .ok s ∧ n = some s.node := by
  cases n with
  | none => exact absurd h (by simp [has])
  | some m =>
      rcases require_of_node? rfl (contains_iff.1 h) with ⟨s, hs, _⟩
      exact ⟨s, hs, (require_eq_ok_iff.1 hs).1⟩

/-- What is accepted as an argument is accepted after an edit of edges and sites. -/
theorem Keeps.require (h : Keeps g g') {n : Option Node} {s : Slot} (hs : g.require n = .ok s) :
    ∃ s', g'.require n = .ok s' ∧ s'.node = s.node := by
  rcases require_eq_ok_iff.1 hs with ⟨hn, hslot⟩
  have hnode := h.node? s.node.id
  rw [node?_eq_some_iff.2 ⟨s, hslot, rfl⟩] at hnode
  rcases node?_eq_some_iff.1 hnode with ⟨s', hslot', hsame⟩
  exact ⟨s', require_eq_ok_iff.2 ⟨by rw [hsame]; exact hn, by rw [hsame]; exact hslot'⟩, hsame⟩

/-- A frozen graph refuses the edits of its structure, whatever their arguments. The
    check comes first in each of them, so not even a missing node is reported. -/
theorem attempt_of_frozen (hf : g.frozen = true) {e : Edit} (he : e.isStructural) :
    g.attempt e = .error .frozen := by
  have hcheck : g.requireThawed = .error .frozen := if_pos hf
  cases e with
  | addEdge src dst => rw [attempt, addEdge, hcheck]; rfl
  | addSite n site => rw [attempt, addSite, hcheck]; rfl
  | addCall src site dst => rw [attempt, addCall, hcheck]; rfl
  | removeEdge src dst => rw [attempt, removeEdge, hcheck]; rfl
  | removeNode n => rw [attempt, removeNode, hcheck]; rfl
  | findOrCreate u c => exact absurd he (by simp [Edit.isStructural])
  | registerEntrypoint n => exact absurd he (by simp [Edit.isStructural])
  | freeze => exact absurd he (by simp [Edit.isStructural])

/-- An edit that names a missing node is refused for the first one that it misses. Edits
    of the structure look for their nodes only in a graph that is not frozen. -/
theorem attempt_of_missing {e : Edit} (hf : e.isStructural → g.frozen = false) {n : Option Node}
    (hn : n ∈ e.arguments) (hmiss : g.has n = false) :
    ∃ m ∈ e.arguments, g.has m = false ∧ g.attempt e = .error (.nodeNotFound m) := by
  have hcheck : e.isStructural → g.requireThawed = .ok () := fun he =>
    requireThawed_eq_ok_iff.2 (hf he)
  -- Edits of two nodes ask for the first, and for the second only if they have the first.
  have hpair : ∀ {src dst : Option Node} {make : Slot → Slot → Graph}, n ∈ [src, dst] →
      ∃ m ∈ [src, dst], g.has m = false ∧
        (do let s ← g.require src; let d ← g.require dst; return make s d) =
          Except.error (GraphError.nodeNotFound m) := by
    intro src dst make hmem
    cases hsrc : g.has src with
    | false =>
        refine ⟨src, List.mem_cons_self, hsrc, ?_⟩
        rw [require_of_not_has hsrc]
        rfl
    | true =>
        rcases require_of_has hsrc with ⟨s, hs, _⟩
        have hdst : g.has dst = false := by
          rcases List.mem_cons.1 hmem with rfl | hmem
          · exact absurd hmiss (by simp [hsrc])
          · rw [← List.mem_singleton.1 hmem]
            exact hmiss
        refine ⟨dst, List.mem_cons_of_mem _ (List.mem_singleton_self _), hdst, ?_⟩
        rw [hs, require_of_not_has hdst]
        rfl
  cases e with
  | registerEntrypoint m =>
      rw [List.mem_singleton.1 hn] at hmiss
      exact ⟨m, List.mem_singleton_self _, hmiss, by
        rw [attempt, registerEntrypoint, require_of_not_has hmiss]; rfl⟩
  | addSite m site =>
      rw [List.mem_singleton.1 hn] at hmiss
      exact ⟨m, List.mem_singleton_self _, hmiss, by
        rw [attempt, addSite, hcheck rfl, require_of_not_has hmiss]; rfl⟩
  | removeNode m =>
      rw [List.mem_singleton.1 hn] at hmiss
      exact ⟨m, List.mem_singleton_self _, hmiss, by
        rw [attempt, removeNode, hcheck rfl, require_of_not_has hmiss]; rfl⟩
  | addEdge src dst =>
      rw [attempt, addEdge, hcheck rfl]
      exact hpair hn
  | addCall src site dst =>
      rw [attempt, addCall, hcheck rfl]
      exact hpair hn
  | removeEdge src dst =>
      rw [attempt, removeEdge, hcheck rfl]
      exact hpair hn
  | findOrCreate u c => exact absurd hn List.not_mem_nil
  | freeze => exact absurd hn List.not_mem_nil

end Graph

/-! ## Edits in place -/

namespace InPlace

open CallAtlas.Graph (Edit)

/-- Asks the graph as it stands, and goes on only with an answer. -/
def check {α : Type} (ask : Graph → Except GraphError α) : EStateM GraphError Graph α := fun g =>
  match ask g with
  | .ok a => .ok a g
  | .error err => .error err g

/-- The node of a unit in a context, made if it is not there yet. -/
def findOrCreate (unit : Option CodeUnit) (context : Option Context) :
    EStateM GraphError Graph Node :=
  match unit, context with
  | some u, some c => do
    match (← get).lookup u c with
    | some n => return n
    | none =>
      check Graph.requireThawed
      modifyGet fun g => ((g.create u c .ordinary).2, (g.create u c .ordinary).1)
  | _, _ => throw .noUnit

/-- Marks a node as an entrypoint. -/
def registerEntrypoint (n : Option Node) : EStateM GraphError Graph Unit := do
  let s ← check (·.require n)
  modify (·.markEntrypoint s.node.id)

/-- Adds an edge that is attributed to no call site. -/
def addEdge (src dst : Option Node) : EStateM GraphError Graph Unit := do
  check Graph.requireThawed
  let s ← check (·.require src)
  let d ← check (·.require dst)
  modify (·.link s.node.id d.node.id)

/-- Records a call site of a node. -/
def addSite (n : Option Node) (site : CallSite) : EStateM GraphError Graph Unit := do
  check Graph.requireThawed
  let s ← check (·.require n)
  modify (·.recordSite s.node.id site)

/-- Records that a site of a node may invoke another, and then adds the edge, which asks
    for both nodes again. -/
def addCall (src : Option Node) (site : CallSite) (dst : Option Node) :
    EStateM GraphError Graph Unit := do
  check Graph.requireThawed
  let s ← check (·.require src)
  let d ← check (·.require dst)
  modify (·.addTarget s.node.id site d.node.id)
  addEdge src dst

/-- Removes an edge with every attribution of it to a site. -/
def removeEdge (src dst : Option Node) : EStateM GraphError Graph Unit := do
  check Graph.requireThawed
  let s ← check (·.require src)
  let d ← check (·.require dst)
  modify (·.unlink s.node.id d.node.id)

/-- Removes an ordinary node with every edge at it. -/
def removeNode (n : Option Node) : EStateM GraphError Graph Unit := do
  check Graph.requireThawed
  let s ← check (·.require n)
  if s.node.kind = .ordinary then modify (·.discard s)
  else throw (.notRemovable s.node.kind)

/-- An edit of a graph where it stands. -/
def edit : Edit → EStateM GraphError Graph Unit
  | .findOrCreate u c => do let _ ← findOrCreate u c
  | .registerEntrypoint n => registerEntrypoint n
  | .addEdge src dst => addEdge src dst
  | .addSite n site => addSite n site
  | .addCall src site dst => addCall src site dst
  | .removeEdge src dst => removeEdge src dst
  | .removeNode n => removeNode n
  | .freeze => modify (·.freeze)

/-- The outcome of an edit that either changes the graph as it should or leaves it. -/
def outcome (g : Graph) : Except GraphError Graph → EStateM.Result GraphError Graph Unit
  | .ok g' => .ok () g'
  | .error err => .error err g

variable {g : Graph}

theorem run_check_of_ok {α β : Type} {ask : Graph → Except GraphError α} {a : α}
    (h : ask g = .ok a) (k : α → EStateM GraphError Graph β) :
    (check ask >>= k).run g = (k a).run g := by
  rw [EStateM.run_bind, EStateM.run, check, h]

theorem run_check_of_error {α β : Type} {ask : Graph → Except GraphError α} {err : GraphError}
    (h : ask g = .error err) (k : α → EStateM GraphError Graph β) :
    (check ask >>= k).run g = .error err g := by
  rw [EStateM.run_bind, EStateM.run, check, h]

/-- A check in place goes on with the graph as it is, or refuses and leaves it. Edits
    are chains of checks with one change at the end, and this lemma is applied once for
    each check. -/
theorem run_check_bind {α : Type} {ask : Graph → Except GraphError α}
    {k : α → EStateM GraphError Graph Unit} {f : α → Except GraphError Graph}
    (h : ∀ a, ask g = .ok a → (k a).run g = outcome g (f a)) :
    (check ask >>= k).run g = outcome g (ask g >>= f) := by
  cases hask : ask g with
  | error err => exact run_check_of_error hask k
  | ok a => exact (run_check_of_ok hask k).trans (h a hask)

/-- Finding or creating a node in place. It is the only edit with a result of its own,
    so it is compared without `outcome`. -/
theorem run_findOrCreate (g : Graph) (u : Option CodeUnit) (c : Option Context) :
    (findOrCreate u c).run g =
      match g.findOrCreate u c with
      | .ok (g', n) => .ok n g'
      | .error err => .error err g := by
  cases u with
  | none => rfl
  | some u =>
      cases c with
      | none => rfl
      | some c =>
          simp only [findOrCreate, Graph.findOrCreate, EStateM.run_bind, EStateM.run_get]
          -- The pair has a node already, so nothing is checked and nothing changes.
          cases g.lookup u c with
          | some n => rfl
          | none =>
              cases hf : g.frozen with
              | true => exact run_check_of_error (if_pos hf) _
              | false => exact run_check_of_ok (a := ()) (Graph.requireThawed_eq_ok_iff.2 hf) _

theorem run_addEdge (g : Graph) (src dst : Option Node) :
    (addEdge src dst).run g = outcome g (g.addEdge src dst) :=
  run_check_bind fun _ _ => run_check_bind fun _ _ => run_check_bind fun _ _ => rfl

/-- The edge of a call is accepted once its site is recorded: the nodes are still there,
    and the graph is as little frozen as before. -/
theorem addEdge_addTarget {src dst : Option Node} {s d : Slot} (hf : g.frozen = false)
    (hs : g.require src = .ok s) (hd : g.require dst = .ok d) (site : CallSite) :
    (g.addTarget s.node.id site d.node.id).addEdge src dst =
      .ok ((g.addTarget s.node.id site d.node.id).link s.node.id d.node.id) := by
  have hkeeps := Graph.keeps_addTarget g s.node.id site d.node.id
  rcases hkeeps.require hs with ⟨s', hs', hsnode⟩
  rcases hkeeps.require hd with ⟨d', hd', hdnode⟩
  exact Graph.addEdge_eq_ok_iff.2
    ⟨hkeeps.frozen.trans hf, s', hs', d', hd', by rw [hsnode, hdnode]⟩

/-- A call is two changes in place, of which the second has checks of its own. They were
    made before the first change already and succeed again, so no call is left half
    made. -/
theorem run_addCall (g : Graph) (src : Option Node) (site : CallSite) (dst : Option Node) :
    (addCall src site dst).run g = outcome g (g.addCall src site dst) := by
  refine run_check_bind fun _ hf => run_check_bind fun s hs => run_check_bind fun d hd => ?_
  -- The site is recorded by now, and the edit for edges starts over.
  rw [EStateM.run_bind, EStateM.run_modify]
  change (addEdge src dst).run (g.addTarget s.node.id site d.node.id) = _
  rw [run_addEdge, addEdge_addTarget (Graph.requireThawed_eq_ok_iff.1 hf) hs hd]
  rfl

/-- An edit in place makes the whole change that the checked edit makes, or none. There
    are several checks in an edit, but no change precedes a check that can fail. -/
theorem run_edit (g : Graph) (e : Edit) : (edit e).run g = outcome g (g.attempt e) := by
  cases e with
  | findOrCreate u c =>
      rw [edit, EStateM.run_bind, run_findOrCreate, Graph.attempt]
      cases g.findOrCreate u c <;> rfl
  | registerEntrypoint n => exact run_check_bind fun _ _ => rfl
  | addEdge src dst => exact run_addEdge g src dst
  | addSite n site => exact run_check_bind fun _ _ => run_check_bind fun _ _ => rfl
  | addCall src site dst => exact run_addCall g src site dst
  | removeEdge src dst =>
      exact run_check_bind fun _ _ => run_check_bind fun _ _ => run_check_bind fun _ _ => rfl
  | removeNode n =>
      refine run_check_bind fun _ _ => run_check_bind fun s _ => ?_
      -- The kind is checked last, and only then is something removed.
      by_cases hk : s.node.kind = .ordinary
      · rw [if_pos hk, if_pos hk]
        rfl
      · rw [if_neg hk, if_neg hk]
        rfl
  | freeze => rfl

end InPlace

namespace Graph

variable {g g' : Graph}

/-- A call that is made has its site, its target and its edge. -/
theorem recorded_of_addCall (hg : WellFormed g) {src dst : Option Node} {site : CallSite}
    (h : g.addCall src site dst = .ok g') :
    ∃ a b, src = some a ∧ dst = some b ∧ site ∈ g'.callSites a ∧ b ∈ g'.targets a site ∧
      g'.hasEdge a b := by
  rcases addCall_eq_ok_iff.1 h with ⟨_, s, hs, d, hd, rfl⟩
  rcases require_eq_ok_iff.1 hs with ⟨hsrc, hs⟩
  rcases require_eq_ok_iff.1 hd with ⟨hdst, hd⟩
  have hkeeps := keeps_call g s.node.id site d.node.id
  have ha := hkeeps.contains_iff.2 (contains_iff.2 (node?_eq_some_iff.2 ⟨s, hs, rfl⟩))
  have hb := hkeeps.contains_iff.2 (contains_iff.2 (node?_eq_some_iff.2 ⟨d, hd, rfl⟩))
  have hwf := hg.call (live_of_slot? hs) (live_of_slot? hd) site
  -- That the callee is a target brings the site and the edge with it.
  have htarget : d.node ∈ ((g.addTarget s.node.id site d.node.id).link s.node.id d.node.id).targets
      s.node site :=
    hwf.mem_targets.2 ⟨ha, hb, (attributes_call (live_of_slot? hs)).2 (Or.inr ⟨rfl, rfl, rfl⟩)⟩
  rcases hwf.target_edge htarget with ⟨hsite, _, hedge⟩
  exact ⟨s.node, d.node, hsrc, hdst, hsite, htarget, hedge⟩

/-! ## Frozen graphs -/

/-- The graph `g'` is `g` with further entrypoints, and with nothing else changed. -/
def EntersFurther (g g' : Graph) : Prop :=
  ∃ more set, g' = { g with entrypoints := g.entrypoints ++ more, entrySet := set }

namespace EntersFurther

/-- Entrypoints come last and are never taken away, so what is tried later adds to what
    was tried before. -/
theorem refl (g : Graph) : EntersFurther g g := ⟨[], g.entrySet, by rw [List.append_nil]⟩

theorem trans {g₁ g₂ g₃ : Graph} (h : EntersFurther g₁ g₂) (h' : EntersFurther g₂ g₃) :
    EntersFurther g₁ g₃ := by
  rcases h with ⟨more, set, rfl⟩
  rcases h' with ⟨more', set', rfl⟩
  exact ⟨more ++ more', set', by rw [List.append_assoc]⟩

theorem markEntrypoint (g : Graph) (id : Int) : EntersFurther g (g.markEntrypoint id) := by
  unfold Graph.markEntrypoint
  split
  · exact refl g
  · exact ⟨[id], g.entrySet.insert id, rfl⟩

/-- An edit gives a frozen graph a further entrypoint at most. Finding a node is allowed
    and changes nothing, and freezing again changes nothing either. -/
theorem after (hf : g.frozen = true) (e : Edit) : EntersFurther g (g.after e) := by
  -- The edits of the structure are refused, and three edits are left.
  by_cases he : e.isStructural
  · rw [Graph.after, attempt_of_frozen hf he]
    exact refl g
  · unfold Graph.after
    split
    · next g' hok =>
      cases e with
      | findOrCreate u c =>
          rw [attempt] at hok
          cases hr : g.findOrCreate u c with
          | error err => rw [hr] at hok; exact absurd hok (by simp [Except.map])
          | ok r =>
              rw [hr, Except.map, Except.ok.injEq] at hok
              rcases findOrCreate_eq_ok_iff.1 hr with ⟨_, _, _, _, ⟨_, hsame⟩ | ⟨_, hthawed, _⟩⟩
              · rw [← hok, ← hsame]
                exact refl g
              · exact absurd hf (by simp [hthawed])
      | registerEntrypoint n =>
          rcases registerEntrypoint_eq_ok_iff.1 hok with ⟨s, _, rfl⟩
          exact markEntrypoint g s.node.id
      | freeze =>
          rw [attempt, Except.ok.injEq] at hok
          refine ⟨[], g.entrySet, ?_⟩
          rw [← hok, Graph.freeze, ← hf, List.append_nil]
      | addEdge src dst => exact absurd rfl he
      | addSite n site => exact absurd rfl he
      | addCall src site dst => exact absurd rfl he
      | removeEdge src dst => exact absurd rfl he
      | removeNode n => exact absurd rfl he
    · exact refl g

theorem frozen_eq (h : EntersFurther g g') : g'.frozen = g.frozen := by
  rcases h with ⟨_, _, rfl⟩
  rfl

/-- A frozen graph gets further entrypoints at most, whatever is tried. It stays frozen,
    so the same holds of each edit in turn. -/
theorem afterAll (hf : g.frozen = true) (es : List Edit) : EntersFurther g (g.afterAll es) := by
  induction es generalizing g with
  | nil => exact refl g
  | cons e rest ih =>
      have hstep := after hf e
      exact hstep.trans (ih (hstep.frozen_eq.trans hf))

end EntersFurther

/-- The node of a live pair is handed out, also by a frozen graph. -/
theorem WellFormed.findOrCreate_of_contains (hg : WellFormed g) {n : Node} (hn : g.contains n) :
    g.findOrCreate (some n.unit) (some n.context) = .ok (g, n) := by
  have hlookup : g.lookup n.unit n.context = some n :=
    hg.lookup_eq_some_iff.2 ⟨contains_iff.1 hn, rfl, rfl⟩
  exact findOrCreate_eq_ok_iff.2 ⟨n.unit, n.context, rfl, rfl, Or.inl ⟨hlookup, rfl⟩⟩

theorem WellFormed.lookup_eq_none_iff (hg : WellFormed g) {u : CodeUnit} {c : Context} :
    g.lookup u c = none ↔ ∀ n, g.contains n → ¬ (n.unit = u ∧ n.context = c) := by
  rw [Option.eq_none_iff_forall_ne_some]
  refine forall_congr' fun n => ?_
  rw [Ne, hg.lookup_eq_some_iff, contains_iff, not_and]

/-- Refused edits and frozen graphs leave everything intact.

    An edit in place makes its checks before it writes, so the state after an error is the
    state before. Only a call checks again after it has recorded its site. It is told the
    same as before, and its edge is not refused. On a frozen graph only entrypoints can
    still be registered, and every question but the one for them is answered as before. -/
theorem edits_all_or_nothing (serial : Nat) (es : List Edit) :
    let g := (fresh serial).afterAll es
    -- A refused edit leaves the graph, and any other makes its whole change.
    (∀ e err g', (InPlace.edit e).run g = .error err g' → g' = g ∧ g.attempt e = .error err) ∧
    (∀ e g', (InPlace.edit e).run g = .ok () g' → g.attempt e = .ok g') ∧
    -- A call has its edge with its site, and the edge is not refused after the site.
    (∀ src site dst g', (InPlace.addCall src site dst).run g = .ok () g' →
      ∃ a b, src = some a ∧ dst = some b ∧ site ∈ g'.callSites a ∧ b ∈ g'.targets a site ∧
        g'.hasEdge a b) ∧
    (∀ src site dst s d, g.frozen = false → g.require src = .ok s → g.require dst = .ok d →
      ∃ g', (InPlace.addEdge src dst).run (g.addTarget s.node.id site d.node.id) = .ok () g') ∧
    -- What is tried on a frozen graph gives it further entrypoints at most.
    ∀ tried,
      let g' := g.freeze.afterAll tried
      EntersFurther g.freeze g' ∧
      (CallGraph.nodes g' = CallGraph.nodes g ∧
        (∀ n, CallGraph.succs g' n = CallGraph.succs g n ∧
          CallGraph.preds g' n = CallGraph.preds g n ∧
          CallGraph.callSites g' n = CallGraph.callSites g n ∧
          ∀ site, CallGraph.targets g' n site = CallGraph.targets g n site) ∧
        CallGraph.nodeCount g' = CallGraph.nodeCount g ∧ g'.edges = g.edges ∧
        CallGraph.maxId g' = CallGraph.maxId g) ∧
      (CallGraph.entrypoints g <+: CallGraph.entrypoints g') ∧
      (∀ n, g'.contains n → g'.findOrCreate (some n.unit) (some n.context) = .ok (g', n)) ∧
      (∀ u c, (∀ n, g'.contains n → ¬ (n.unit = u ∧ n.context = c)) →
        g'.findOrCreate (some u) (some c) = .error .frozen) ∧
      ∀ e, e.isStructural → g'.attempt e = .error .frozen := by
  intro g
  have hg : WellFormed g := (wellFormed_fresh serial).afterAll es
  have hplace : ∀ e, (InPlace.edit e).run g = InPlace.outcome g (g.attempt e) := InPlace.run_edit g
  refine ⟨?_, ?_, ?_, ?_, ?_⟩
  · intro e err g' he
    rw [hplace] at he
    cases ha : g.attempt e with
    | ok g₁ => rw [ha] at he; exact absurd he (by simp [InPlace.outcome])
    | error err' =>
        rw [ha, InPlace.outcome, EStateM.Result.error.injEq] at he
        rw [he.1]
        exact ⟨he.2.symm, rfl⟩
  · intro e g' he
    rw [hplace] at he
    cases ha : g.attempt e with
    | ok g₁ =>
        rw [ha, InPlace.outcome, EStateM.Result.ok.injEq] at he
        rw [he.2]
    | error err' => rw [ha] at he; exact absurd he (by simp [InPlace.outcome])
  · intro src site dst g' hcall
    rw [InPlace.run_addCall] at hcall
    cases ha : g.addCall src site dst with
    | ok g₁ =>
        rw [ha, InPlace.outcome, EStateM.Result.ok.injEq] at hcall
        rw [← hcall.2]
        exact recorded_of_addCall hg ha
    | error err => rw [ha] at hcall; exact absurd hcall (by simp [InPlace.outcome])
  · intro src site dst s d hf hs hd
    have hedge := InPlace.addEdge_addTarget hf hs hd site
    exact ⟨_, (InPlace.run_addEdge _ src dst).trans (congrArg _ hedge)⟩
  · intro tried g'
    have hfurther : EntersFurther g.freeze g' := .afterAll rfl tried
    have hfrozen : g'.frozen = true := hfurther.frozen_eq
    have hg' : WellFormed g' := hg.freeze.afterAll tried
    refine ⟨hfurther, ?_, ?_, fun n => hg'.findOrCreate_of_contains, ?_,
      fun e => attempt_of_frozen hfrozen⟩
    · -- Every question but the one for entrypoints is answered from what is the same.
      rcases hfurther with ⟨more, set, hsame⟩
      rw [hsame]
      exact ⟨rfl, fun n => ⟨rfl, rfl, rfl, fun _ => rfl⟩, rfl, rfl, rfl⟩
    · rcases hfurther with ⟨more, set, hsame⟩
      rw [hsame]
      change g.nodesWith g.entrypoints <+: g.nodesWith (g.entrypoints ++ more)
      rw [nodesWith, nodesWith, List.filterMap_append]
      exact List.prefix_append _ _
    · intro u c hnone
      have hlookup := hg'.lookup_eq_none_iff.2 hnone
      simp only [findOrCreate, hlookup, hfrozen, if_true]

end Graph

end CallAtlas
