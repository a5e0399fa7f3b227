import CallAtlas.Proofs.Queries
import CallAtlas.Proofs.Removal

/-!
# Edits and What They Keep

Callers edit a graph through the checked edits, in any order and with any
arguments: missing nodes, nodes that were removed, nodes of other graphs. An edit
is refused or it is one of the bare edits at nodes of the graph, and nothing else
can happen. The lemmas `…_eq_ok_iff` say this edit by edit, with every guard, and
are all that is needed to go from the checked edits to the bare ones and back.

A graph is *obtainable* if a sequence of edits leads to it from a fresh one.
Refused edits leave the graph as it was, so a sequence may contain as many of them
as it likes. Well-formedness holds of a fresh graph and survives every edit, hence
it holds of every obtainable graph.

## Main definitions

* `Graph.Edit`: An edit with its arguments.
* `Graph.after`, `Graph.afterAll`: The graph after an edit, and after many.
* `Graph.Obtainable`: A graph to which edits lead from a fresh one.

## Theorems

* `foldlM_ok`: A fold succeeds if each of its steps does.
* `Graph.require_eq_ok_iff`: Only nodes of the graph are accepted as arguments.
* `Graph.WellFormed.after`: One edit keeps a graph well formed.
* `Graph.Obtainable.wellFormed`: Obtainable graphs are well formed.
* `Graph.representation_invariant`: Everything that a graph says twice agrees
  after any sequence of edits.
-/

namespace CallAtlas

/-- Two steps in a row succeed if both do. Guards of an edit are such steps, which makes
    the characterisations below a matter of rewriting. -/
theorem except_bind_eq_ok_iff {ε α β : Type} {x : Except ε α} {f : α → Except ε β} {b : β} :
    x >>= f = .ok b ↔ ∃ a, x = .ok a ∧ f a = .ok b := by
  cases x with
  | error e =>
      constructor
      · intro h
        exact absurd h (by simp [bind, Except.bind])
      · rintro ⟨a, ha, _⟩
        exact absurd ha (by simp)
  | ok a =>
      constructor
      · exact fun h => ⟨a, rfl, h⟩
      · -- The result of the first step is the only one that the second can go on with.
        rintro ⟨a', ha, h⟩
        rw [Except.ok.injEq] at ha
        rw [← ha] at h
        exact h

/-- A fold over a list succeeds if every step does. The property `P` is of the elements
    that have been folded and of the result so far, and a step may use where in the list
    it is. -/
theorem foldlM_ok {α β γ ε : Type} {f : β → γ → Except ε β} {r : α → γ} {P : List α → β → Prop}
    {l : List α} (hstep : ∀ {done x rest b}, l = done ++ x :: rest → P done b →
      ∃ b', f b (r x) = .ok b' ∧ P (done ++ [x]) b') {b : β} (hb : P [] b) :
    ∃ b', (l.map r).foldlM f b = .ok b' ∧ P l b' := by
  -- Generalised to any rest of the list, with what came before it in `done`.
  have hfrom : ∀ (rest done : List α) (b : β), l = done ++ rest → P done b →
      ∃ b', (rest.map r).foldlM f b = .ok b' ∧ P l b' := by
    intro rest
    induction rest with
    | nil =>
        intro done b hl hdone
        rw [List.append_nil] at hl
        exact ⟨b, rfl, hl ▸ hdone⟩
    | cons x rest ih =>
        intro done b hl hdone
        rcases hstep hl hdone with ⟨b', hx, hdone'⟩
        have hl' : l = (done ++ [x]) ++ rest := by
          rw [hl, List.append_assoc, List.singleton_append]
        rcases ih (done ++ [x]) b' hl' hdone' with ⟨b'', hrest, hall⟩
        refine ⟨b'', ?_, hall⟩
        rw [List.map_cons, List.foldlM_cons, hx]
        exact hrest
  exact hfrom l [] b rfl hb

namespace Graph

/-! ## When an edit is accepted -/

/-- Only nodes of the graph are accepted as arguments. -/
theorem require_eq_ok_iff {g : Graph} {n : Option Node} {s : Slot} :
    g.require n = .ok s ↔ n = some s.node ∧ g.slot? s.node.id = some s := by
  cases n with
  | none => simp [require]
  | some m =>
      rw [require, Option.bind_some]
      cases hs : g.slotOf? m with
      | none =>
          refine ⟨fun h => absurd h (by simp), ?_⟩
          rintro ⟨hm, hslot⟩
          rw [Option.some.injEq] at hm
          rw [hm, slotOf?_eq_some_iff.2 ⟨hslot, rfl⟩] at hs
          exact absurd hs (by simp)
      -- A slot that is found for a node is the slot of that very node.
      | some t =>
          rcases slotOf?_eq_some_iff.1 hs with ⟨hslot, hnode⟩
          subst hnode
          simp only [Except.ok.injEq, Option.some.injEq]
          constructor
          · rintro rfl
            exact ⟨rfl, hslot⟩
          · rintro ⟨hn, hslot'⟩
            rw [hn, hslot', Option.some.injEq] at hslot
            exact hslot.symm

theorem requireThawed_eq_ok_iff {g : Graph} {u : Unit} :
    g.requireThawed = .ok u ↔ g.frozen = false := by
  unfold requireThawed
  cases g.frozen <;> simp

/-- Entrypoints may be registered in a frozen graph too: there is no guard for that. -/
theorem registerEntrypoint_eq_ok_iff {g g' : Graph} {n : Option Node} :
    g.registerEntrypoint n = .ok g' ↔
      ∃ s, g.require n = .ok s ∧ g.markEntrypoint s.node.id = g' := by
  simp only [registerEntrypoint, except_bind_eq_ok_iff, pure, Except.pure, Except.ok.injEq]

theorem addEdge_eq_ok_iff {g g' : Graph} {src dst : Option Node} :
    g.addEdge src dst = .ok g' ↔ g.frozen = false ∧
      ∃ s, g.require src = .ok s ∧ ∃ d, g.require dst = .ok d ∧
        g.link s.node.id d.node.id = g' := by
  simp only [addEdge, except_bind_eq_ok_iff, requireThawed_eq_ok_iff, pure, Except.pure,
    Except.ok.injEq, exists_const]

theorem addSite_eq_ok_iff {g g' : Graph} {n : Option Node} {site : CallSite} :
    g.addSite n site = .ok g' ↔ g.frozen = false ∧
      ∃ s, g.require n = .ok s ∧ g.recordSite s.node.id site = g' := by
  simp only [addSite, except_bind_eq_ok_iff, requireThawed_eq_ok_iff, pure, Except.pure,
    Except.ok.injEq, exists_const]

theorem addCall_eq_ok_iff {g g' : Graph} {src dst : Option Node} {site : CallSite} :
    g.addCall src site dst = .ok g' ↔ g.frozen = false ∧
      ∃ s, g.require src = .ok s ∧ ∃ d, g.require dst = .ok d ∧
        (g.addTarget s.node.id site d.node.id).link s.node.id d.node.id = g' := by
  simp only [addCall, except_bind_eq_ok_iff, requireThawed_eq_ok_iff, pure, Except.pure,
    Except.ok.injEq, exists_const]

/-- Removing has the guards that adding has. An edge that is not there is removed
    without complaint. -/
theorem removeEdge_eq_ok_iff {g g' : Graph} {src dst : Option Node} :
    g.removeEdge src dst = .ok g' ↔ g.frozen = false ∧
      ∃ s, g.require src = .ok s ∧ ∃ d, g.require dst = .ok d ∧
        g.unlink s.node.id d.node.id = g' := by
  simp only [removeEdge, except_bind_eq_ok_iff, requireThawed_eq_ok_iff, pure, Except.pure,
    Except.ok.injEq, exists_const]

/-- Ordinary nodes may be removed and the roots may not. The node is looked up first, so
    a node of another graph is reported as such even if it is a root there. -/
theorem removeNode_eq_ok_iff {g g' : Graph} {n : Option Node} :
    g.removeNode n = .ok g' ↔ g.frozen = false ∧
      ∃ s, g.require n = .ok s ∧ s.node.kind = .ordinary ∧ g.discard s = g' := by
  -- The last guard, which only this edit has.
  have hlast : ∀ s : Slot,
      (if s.node.kind = .ordinary then (pure (g.discard s) : Except GraphError Graph)
      else throw (.notRemovable s.node.kind)) = .ok g' ↔
      s.node.kind = .ordinary ∧ g.discard s = g' := by
    intro s
    by_cases hk : s.node.kind = .ordinary
    · simp [hk, pure, Except.pure]
    · simp [hk, throw, throwThe, MonadExceptOf.throw]
  simp only [removeNode, except_bind_eq_ok_iff, requireThawed_eq_ok_iff, hlast, exists_const]

/-- In a well-formed graph a pair without a node is not in the index. A lookup could
    also fail for an index that names an empty slot, which is ruled out here. -/
theorem Indexed.find?_index_eq_none {g : Graph} (hg : Indexed g) {u : CodeUnit} {c : Context}
    (h : g.lookup u c = none) : g.index.find? (u, c) = none := by
  cases hi : g.index.find? (u, c) with
  | none => rfl
  | some i =>
      rcases hg.index_iff.1 hi with ⟨n, hn, _⟩
      rcases node?_eq_some_iff.1 hn with ⟨s, hs, _⟩
      rw [lookup, hi, Option.bind_some, hs] at h
      exact absurd h (by simp)

/-- A node is found or it is made. Finding one is possible in a frozen graph. -/
theorem findOrCreate_eq_ok_iff {g g' : Graph} {u : Option CodeUnit} {c : Option Context}
    {n : Node} :
    g.findOrCreate u c = .ok (g', n) ↔ ∃ u' c', u = some u' ∧ c = some c' ∧
      ((g.lookup u' c' = some n ∧ g = g') ∨
        (g.lookup u' c' = none ∧ g.frozen = false ∧ g.create u' c' .ordinary = (g', n))) := by
  cases u with
  | none => simp [findOrCreate]
  | some u =>
      cases c with
      | none => simp [findOrCreate]
      | some c =>
          simp only [findOrCreate, Option.some.injEq, exists_and_left, exists_eq_left']
          cases g.lookup u c with
          | some m => simp [and_comm]
          | none => cases g.frozen <;> simp

/-! ## Sequences of edits -/

/-- An edit with its arguments, which need not be nodes of the graph. -/
inductive Edit where
  | findOrCreate (unit : Option CodeUnit) (context : Option Context)
  | registerEntrypoint (n : Option Node)
  | addEdge (src dst : Option Node)
  | addSite (n : Option Node) (site : CallSite)
  | addCall (src : Option Node) (site : CallSite) (dst : Option Node)
  | removeEdge (src dst : Option Node)
  | removeNode (n : Option Node)
  | freeze
deriving DecidableEq

/-- Makes an edit, or refuses it. -/
def attempt (g : Graph) : Edit → Except GraphError Graph
  | .findOrCreate u c => (g.findOrCreate u c).map Prod.fst
  | .registerEntrypoint n => g.registerEntrypoint n
  | .addEdge src dst => g.addEdge src dst
  | .addSite n site => g.addSite n site
  | .addCall src site dst => g.addCall src site dst
  | .removeEdge src dst => g.removeEdge src dst
  | .removeNode n => g.removeNode n
  | .freeze => .ok g.freeze

/-- The graph after an edit. A refused edit leaves it as it was. -/
def after (g : Graph) (e : Edit) : Graph :=
  match g.attempt e with
  | .ok g' => g'
  | .error _ => g

/-- The graph after a sequence of edits. -/
def afterAll (g : Graph) (es : List Edit) : Graph := es.foldl after g

/-- A graph to which edits lead from a fresh one. -/
def Obtainable (g : Graph) : Prop := ∃ serial es, g = (fresh serial).afterAll es

theorem afterAll_append (g : Graph) (es es' : List Edit) :
    g.afterAll (es ++ es') = (g.afterAll es).afterAll es' :=
  List.foldl_append

theorem after_of_attempt {g g' : Graph} {e : Edit} (h : g.attempt e = .ok g') : g.after e = g' := by
  rw [after, h]

theorem obtainable_fresh (serial : Nat) : Obtainable (fresh serial) := ⟨serial, [], rfl⟩

theorem Obtainable.afterAll {g : Graph} (h : Obtainable g) (es : List Edit) :
    Obtainable (g.afterAll es) := by
  rcases h with ⟨serial, es', rfl⟩
  exact ⟨serial, es' ++ es, (afterAll_append _ es' es).symm⟩

theorem Obtainable.attempt {g g' : Graph} (h : Obtainable g) {e : Edit}
    (he : g.attempt e = .ok g') : Obtainable g' := by
  rw [← after_of_attempt he]
  exact h.afterAll [e]

/-- An accepted edit keeps a graph well formed. There is one case for each edit, in
    which the guards provide what the lemma of the bare edit asks for. -/
theorem WellFormed.attempt {g g' : Graph} (hg : WellFormed g) {e : Edit}
    (he : g.attempt e = .ok g') : WellFormed g' := by
  -- What is accepted as an argument is live.
  have live : ∀ {n : Option Node} {s : Slot}, g.require n = .ok s → g.Live s.node.id :=
    fun h => live_of_slot? (require_eq_ok_iff.1 h).2
  cases e with
  | findOrCreate u c =>
      simp only [Graph.attempt] at he
      cases hf : g.findOrCreate u c with
      | error err => rw [hf] at he; exact absurd he (by simp [Except.map])
      | ok r =>
          rw [hf] at he
          simp only [Except.map, Except.ok.injEq] at he
          subst he
          rcases findOrCreate_eq_ok_iff.1 hf with ⟨u', c', _, _, ⟨_, hsame⟩ | ⟨hnone, _, hmade⟩⟩
          · rw [← hsame]
            exact hg
          · rw [← congrArg Prod.fst hmade]
            exact hg.create (hg.find?_index_eq_none hnone)
  | registerEntrypoint n =>
      rcases registerEntrypoint_eq_ok_iff.1 he with ⟨s, hs, rfl⟩
      exact hg.markEntrypoint (live hs)
  | addEdge src dst =>
      rcases addEdge_eq_ok_iff.1 he with ⟨_, s, hs, d, hd, rfl⟩
      exact hg.link (live hs) (live hd)
  | addSite n site =>
      rcases addSite_eq_ok_iff.1 he with ⟨_, s, _, rfl⟩
      exact hg.recordSite s.node.id site
  | addCall src site dst =>
      rcases addCall_eq_ok_iff.1 he with ⟨_, s, hs, d, hd, rfl⟩
      exact hg.call (live hs) (live hd) site
  | removeEdge src dst =>
      rcases removeEdge_eq_ok_iff.1 he with ⟨_, s, _, d, _, rfl⟩
      exact hg.unlink s.node.id d.node.id
  | removeNode n =>
      rcases removeNode_eq_ok_iff.1 he with ⟨_, s, hs, hkind, rfl⟩
      exact hg.discard (require_eq_ok_iff.1 hs).2 hkind
  | freeze =>
      simp only [Graph.attempt, Except.ok.injEq] at he
      rw [← he]
      exact hg.freeze

/-- One edit keeps a graph well formed, whether it is accepted or not. -/
theorem WellFormed.after {g : Graph} (hg : WellFormed g) (e : Edit) : WellFormed (g.after e) := by
  unfold Graph.after
  split
  · next he => exact hg.attempt he
  · exact hg

/-- Edits keep a graph well formed. The induction is along the sequence, with any graph
    to start from. -/
theorem WellFormed.afterAll {g : Graph} (hg : WellFormed g) (es : List Edit) :
    WellFormed (g.afterAll es) := by
  induction es generalizing g with
  | nil => exact hg
  | cons e rest ih => exact ih (hg.after e)

/-- Obtainable graphs are well formed. -/
theorem Obtainable.wellFormed {g : Graph} (h : Obtainable g) : WellFormed g := by
  rcases h with ⟨serial, es, rfl⟩
  exact (wellFormed_fresh serial).afterAll es

/-! ## What every obtainable graph says twice -/

theorem slot?_of_getElem? {g : Graph} {i : Nat} {s : Slot} (h : g.slots[i]? = some (some s)) :
    g.slot? i = some s := by
  rw [← getElem?_slots, h]
  rfl

theorem getElem?_of_node? {g : Graph} {i : Nat} {n : Node} (h : g.node? i = some n) :
    ∃ s, g.slots[i]? = some (some s) ∧ s.node = n := by
  rcases node?_eq_some_iff.1 h with ⟨s, hs, hn⟩
  rw [← getElem?_slots] at hs
  exact ⟨s, Option.join_eq_some_iff.1 hs, hn⟩

/-- Everything that a graph says twice agrees after any sequence of edits, with any
    arguments and refused edits among them. -/
theorem representation_invariant (serial : Nat) (edits : List Edit) :
    let g := (fresh serial).afterAll edits
    -- Slots hold the nodes of their numbers, and the first two hold the roots.
    ((∀ (i : Nat) (s : Slot), g.slots[i]? = some (some s) → s.node.id = i) ∧
      (∃ s, g.slots[0]? = some (some s) ∧
        s.node = ⟨g.serial, 0, .fakeRoot, .everywhere, .fakeRoot⟩) ∧
      (∃ s, g.slots[1]? = some (some s) ∧
        s.node = ⟨g.serial, 1, .fakeWorldClinit, .everywhere, .fakeWorldClinit⟩)) ∧
    -- The index names the node of a pair, and a pair has at most one node.
    ((∀ u c i, g.index.find? (u, c) = some i ↔
        ∃ s, g.slot? i = some s ∧ s.node.unit = u ∧ s.node.context = c) ∧
      (∀ i j s t, g.slot? i = some s → g.slot? j = some t → s.node.unit = t.node.unit →
        s.node.context = t.node.context → i = j)) ∧
    -- The list of a unit has its nodes in ascending order and is not kept empty.
    ((∀ u ids, g.byUnit.find? u = some ids → ids ≠ [] ∧ ids.Pairwise (· < ·)) ∧
      (∀ u i, i ∈ (g.byUnit.find? u).getD [] ↔ ∃ s, g.slot? i = some s ∧ s.node.unit = u)) ∧
    -- The first counter counts the nodes.
    ({i | (g.slot? i).isSome}.Finite ∧ g.live = {i | (g.slot? i).isSome}.ncard) ∧
    -- Edges join nodes, and both ends store them.
    ((∀ i s, g.slot? i = some s →
        (∀ d ∈ s.succs, (g.slot? d).isSome) ∧ ∀ p ∈ s.preds, (g.slot? p).isSome) ∧
      (∀ i j s t, g.slot? i = some s → g.slot? j = some t → (j ∈ s.succs ↔ i ∈ t.preds))) ∧
    -- The second counter counts the edges, as a walk over the graph does.
    ({p : Int × Int | ∃ s, g.slot? p.1 = some s ∧ p.2 ∈ s.succs}.Finite ∧
      g.edges = {p : Int × Int | ∃ s, g.slot? p.1 = some s ∧ p.2 ∈ s.succs}.ncard ∧
      g.edges = CallGraph.countEdges g) ∧
    -- Sites are recorded once, have targets, and every target is a callee.
    (∀ i s, g.slot? i = some s → s.sites.Nodup ∧
      (∀ site, site ∈ s.sites ↔ (s.targets.find? site).isSome) ∧
      (∀ site t, s.targets.find? site = some t → ∀ d ∈ t, d ∈ s.succs)) ∧
    -- Entrypoints are nodes, registered once, and the set has the same members.
    ((∀ i ∈ g.entrypoints, (g.slot? i).isSome) ∧ g.entrypoints.Nodup ∧
      ∀ i, i ∈ g.entrySet ↔ i ∈ g.entrypoints) := by
  intro g
  have hg : WellFormed g := (wellFormed_fresh serial).afterAll edits
  have hnode : ∀ {i s}, g.slot? i = some s → g.node? i = some s.node :=
    fun hs => node?_eq_some_iff.2 ⟨_, hs, rfl⟩
  have hindex : ∀ u c i, g.index.find? (u, c) = some i ↔
      ∃ s, g.slot? i = some s ∧ s.node.unit = u ∧ s.node.context = c := by
    intro u c i
    rw [hg.index_iff]
    simp only [node?_eq_some_iff]
    constructor
    · rintro ⟨n, ⟨s, hs, rfl⟩, hu, hc⟩
      exact ⟨s, hs, hu, hc⟩
    · rintro ⟨s, hs, hu, hc⟩
      exact ⟨s.node, ⟨s, hs, rfl⟩, hu, hc⟩
  refine ⟨⟨?_, getElem?_of_node? hg.root, getElem?_of_node? hg.clinit⟩, ⟨hindex, ?_⟩, ⟨?_, ?_⟩,
    ⟨finite_live g, hg.live_eq⟩, ⟨?_, fun i j s t => hg.mem_succs_iff⟩,
    ⟨hg.finite_edgeSet, hg.edges_eq, hg.countEdges_eq.symm⟩, ?_,
    ⟨fun i => hg.entry_live, hg.entry_nodup, fun i => hg.mem_entrySet⟩⟩
  · intro i s hs
    exact hg.id_eq (hnode (slot?_of_getElem? hs))
  · -- Both nodes are what the index names for their pair.
    intro i j s t hs ht hu hc
    have hi := (hindex t.node.unit t.node.context i).2 ⟨s, hs, hu, hc⟩
    rw [(hindex t.node.unit t.node.context j).2 ⟨t, ht, rfl, rfl⟩, Option.some.injEq] at hi
    exact hi.symm
  · intro u ids hids
    refine ⟨?_, ?_⟩
    · rintro rfl
      exact hg.byUnit_ne_nil u hids
    · have hasc := hg.byUnit_ascending u
      rw [hids] at hasc
      exact hasc
  · intro u i
    rw [hg.mem_byUnit]
    simp only [node?_eq_some_iff]
    constructor
    · rintro ⟨n, ⟨s, hs, rfl⟩, hu⟩
      exact ⟨s, hs, hu⟩
    · rintro ⟨s, hs, hu⟩
      exact ⟨s.node, ⟨s, hs, rfl⟩, hu⟩
  · intro i s hs
    refine ⟨fun d hd => hg.live_right ⟨s, hs, hd⟩, fun p hp => ?_⟩
    exact (hg.calls_iff.2 ⟨s, hs, hp⟩).live_left
  · intro i s hs
    refine ⟨?_, ?_, fun site t ht d => hg.target_called hs ht⟩
    · rw [← hg.keys_eq hs]
      exact s.targets.nodup
    · intro site
      rw [← hg.keys_eq hs, Table.mem_keys]

end Graph

end CallAtlas
