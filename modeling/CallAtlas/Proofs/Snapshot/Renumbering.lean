import CallAtlas.Proofs.Prune.Views

/-!
# Renumbered Graphs

A document keeps a graph, but not its numbers: whoever rebuilds the graph makes the
nodes anew, in the order in which they were listed, and each gets the next number
there is. The two roots are always there and come first. Units and contexts come back
as what the document says of them, their references and names.

This module says what a node comes back as, and when a graph comes back as another.
The order of the nodes stays the same, since they were listed by number, so lists of
nodes come back in order too.

## Main definitions

* `CallGraph.Obtained`: A graph to which edits lead, or a view of one.
* `CallGraph.ordinary`: The ordinary nodes in order.
* `CallGraph.Storable`: A document can tell the nodes and sites of a graph.
* `CallGraph.renumbered`: What a node comes back as.
* `CallGraph.Restored`: A graph is another one with its nodes taken to new ones.
* `CallGraph.Gapless`: There are no gaps between the numbers of a graph.

## Theorems

* `CallGraph.Obtained.lawful`: Obtained graphs are lawful.
* `CallGraph.Lawful.renumbered_lt`: The order of the nodes stays the same.
* `CallGraph.Lawful.renumbered_inj`: No two nodes come back as one.
* `CallGraph.Lawful.renumbered_id_of_gapless`: Without gaps the numbers stay the same.
-/

namespace CallAtlas

/-- A graph to which edits lead from a fresh one, or a view of such a graph. -/
inductive CallGraph.Obtained : {G : Type} → [CallGraph G] → G → Prop
  | graph {g : Graph} : g.Obtainable → CallGraph.Obtained g
  | view {v : View} : v.graph.Obtainable → CallGraph.Obtained v

namespace CallGraph

variable {G : Type} [CallGraph G] {g : G}

/-- Obtained graphs are lawful. -/
theorem Obtained.lawful (h : Obtained g) : Lawful g := by
  cases h with
  | graph hg => exact hg.wellFormed.lawful
  | view hg => exact View.lawful hg.wellFormed.lawful

/-- The ordinary nodes in order. -/
def ordinary (g : G) : List Node := (nodes g).filter fun n => n.kind = .ordinary

/-- A document can tell the nodes and sites of a graph: every site has a kind that has a
    name, no two nodes have the same reference and name of context, and no ordinary node
    passes for a root. -/
structure Storable (g : G) : Prop where
  named : ∀ {n}, n ∈ nodes g → ∀ s ∈ callSites g n, s.kind ∈ Dispatch.named
  distinct : ∀ {a}, a ∈ nodes g → ∀ {b}, b ∈ nodes g → a.unit.ref = b.unit.ref →
    a.context.text = b.context.text → a = b
  not_synthetic : ∀ {n}, n ∈ nodes g → n.kind = .ordinary →
    n.context.text = "Everywhere" →
    n.unit.ref ≠ CodeUnit.fakeRoot.ref ∧ n.unit.ref ≠ CodeUnit.fakeWorldClinit.ref

instance : Decidable (Storable g) :=
  decidable_of_iff
    ((∀ n ∈ nodes g, ∀ s ∈ callSites g n, s.kind ∈ Dispatch.named) ∧
      (∀ a ∈ nodes g, ∀ b ∈ nodes g, a.unit.ref = b.unit.ref → a.context.text = b.context.text →
        a = b) ∧
      ∀ n ∈ nodes g, n.kind = .ordinary → n.context.text = "Everywhere" →
        n.unit.ref ≠ CodeUnit.fakeRoot.ref ∧ n.unit.ref ≠ CodeUnit.fakeWorldClinit.ref)
    ⟨fun h => ⟨h.1 _, fun ha => h.2.1 _ ha _, h.2.2 _⟩,
      fun h => ⟨fun _ => h.named, fun _ ha _ => h.distinct ha, fun _ => h.not_synthetic⟩⟩

/-- The fake root of a graph. -/
def rootNode (serial : Nat) : Node := ⟨serial, Graph.rootId, .fakeRoot, .everywhere, .fakeRoot⟩

/-- The fake world-clinit node of a graph. -/
def clinitNode (serial : Nat) : Node :=
  ⟨serial, Graph.clinitId, .fakeWorldClinit, .everywhere, .fakeWorldClinit⟩

/-- What a node comes back as. Ordinary nodes are numbered from 2 on. -/
def renumbered (serial : Nat) (g : G) (n : Node) : Node :=
  match n.kind with
  | .fakeRoot => rootNode serial
  | .fakeWorldClinit => clinitNode serial
  | .ordinary =>
    ⟨serial, (ordinary g).idxOf n + 2, .named n.unit.ref, .ofName n.context.text, .ordinary⟩

/-- The graph `g'` is `g` with every node taken to what it comes back as. Its roots are
    always there, and have no sites and no edges if `g` has none. -/
structure Restored (g : G) (back : Node → Node) (g' : Graph) : Prop where
  root_eq : ∀ {n}, fakeRoot g = some n → fakeRoot g' = some (back n)
  clinit_eq : ∀ {n}, fakeWorldClinit g = some n → fakeWorldClinit g' = some (back n)
  ordinary_id : ∀ {k : Nat} {n}, (ordinary g)[k]? = some n → (back n).id = k + 2
  ref_eq : ∀ {n}, n ∈ nodes g → (back n).unit.ref = n.unit.ref
  context_eq : ∀ {n}, n ∈ nodes g → (back n).context.text = n.context.text
  kind_eq : ∀ {n}, n ∈ nodes g → (back n).kind = n.kind
  back_mem : ∀ {n}, n ∈ nodes g → back n ∈ nodes g'
  back_inj : ∀ {a b}, a ∈ nodes g → b ∈ nodes g → back a = back b → a = b
  callSites_eq : ∀ {n}, n ∈ nodes g → callSites g' (back n) = callSites g n
  hasEdge_eq : ∀ {a b}, a ∈ nodes g → b ∈ nodes g → hasEdge g' (back a) (back b) = hasEdge g a b
  targets_eq : ∀ {n}, n ∈ nodes g → ∀ site,
    targets g' (back n) site = (targets g n site).map back
  sitesBetween_eq : ∀ {a b}, a ∈ nodes g → b ∈ nodes g →
    sitesBetween g' (back a) (back b) = sitesBetween g a b
  entrypoints_eq : entrypoints g' = (entrypoints g).map back
  added : ∀ {m}, m ∈ nodes g' → (∃ n ∈ nodes g, back n = m) ∨
    (m.kind ≠ .ordinary ∧ callSites g' m = [] ∧ succs g' m = [] ∧ preds g' m = [])

/-- Both roots are there, and there are no gaps between the numbers. -/
structure Gapless (g : G) : Prop where
  root : ∃ n ∈ nodes g, n.id = Graph.rootId
  clinit : ∃ n ∈ nodes g, n.id = Graph.clinitId
  between : ∀ a ∈ nodes g, ∀ b ∈ nodes g, ∀ i, a.id ≤ i → i ≤ b.id → ∃ n ∈ nodes g, n.id = i

/-! ## Nodes keep their order -/

theorem mem_ordinary {n : Node} : n ∈ ordinary g ↔ n ∈ nodes g ∧ n.kind = .ordinary := by
  rw [ordinary, List.mem_filter, decide_eq_true_iff]

/-- A node comes back as one of its kind. -/
@[simp] theorem renumbered_kind (serial : Nat) (g : G) (n : Node) :
    (renumbered serial g n).kind = n.kind := by
  unfold renumbered
  split
  · next h => exact h.symm
  · next h => exact h.symm
  · next h => exact h.symm

theorem renumbered_of_fakeRoot {serial : Nat} {n : Node} (h : n.kind = .fakeRoot) :
    renumbered serial g n = rootNode serial := by
  rw [renumbered, h]

theorem renumbered_of_fakeWorldClinit {serial : Nat} {n : Node} (h : n.kind = .fakeWorldClinit) :
    renumbered serial g n = clinitNode serial := by
  rw [renumbered, h]

theorem renumbered_of_ordinary {serial : Nat} {n : Node} (h : n.kind = .ordinary) :
    renumbered serial g n =
      ⟨serial, (ordinary g).idxOf n + 2, .named n.unit.ref, .ofName n.context.text, .ordinary⟩ := by
  rw [renumbered, h]

/-- In an ascending list lower numbers come first. Both members are compared with the
    head, which cannot be the one with the higher number. -/
theorem idxOf_lt_of_ascending {l : List Node} (hl : l.Pairwise fun a b => a.id < b.id) {a b : Node}
    (ha : a ∈ l) (hb : b ∈ l) (hab : a.id < b.id) : l.idxOf a < l.idxOf b := by
  induction l with
  | nil => exact absurd ha List.not_mem_nil
  | cons c rest ih =>
      rw [List.pairwise_cons] at hl
      -- The head has the lowest number, so it is not the higher of the two.
      have hbc : b ≠ c := by
        rintro rfl
        rcases List.mem_cons.1 ha with rfl | ha
        · omega
        · have := hl.1 a ha
          omega
      rw [List.idxOf_cons_ne rest (Ne.symm hbc)]
      by_cases hac : a = c
      · rw [hac, List.idxOf_cons_self]
        omega
      · rw [List.idxOf_cons_ne rest (Ne.symm hac)]
        have hlt := ih hl.2 ((List.mem_cons.1 ha).resolve_left hac)
          ((List.mem_cons.1 hb).resolve_left hbc)
        omega

/-- In an ascending list without gaps numbers count the positions. The first has the
    lowest number, and the rest is a list without gaps that starts one higher. -/
theorem id_eq_idxOf_of_gapless {l : List Node} {start : Int}
    (hl : l.Pairwise fun a b => a.id < b.id) (hstart : ∀ a ∈ l, start ≤ a.id)
    (hgap : ∀ b ∈ l, ∀ i, start ≤ i → i ≤ b.id → ∃ a ∈ l, a.id = i) {n : Node} (hn : n ∈ l) :
    (l.idxOf n : Int) + start = n.id := by
  induction l generalizing start with
  | nil => exact absurd hn List.not_mem_nil
  | cons c rest ih =>
      rw [List.pairwise_cons] at hl
      -- Whichever node has the first number, no node comes before `c`.
      have hc : c.id = start := by
        rcases hgap c List.mem_cons_self start Int.le_rfl (hstart c List.mem_cons_self) with
          ⟨a, ha, haid⟩
        rcases List.mem_cons.1 ha with rfl | ha
        · exact haid
        · have hlt := hl.1 a ha
          have hle := hstart c List.mem_cons_self
          omega
      by_cases hnc : n = c
      · rw [hnc, List.idxOf_cons_self, hc]
        simp
      · have hrest : ∀ b ∈ rest, ∀ i, start + 1 ≤ i → i ≤ b.id → ∃ a ∈ rest, a.id = i := by
          intro b hb i hi hib
          rcases hgap b (List.mem_cons_of_mem c hb) i (by omega) hib with ⟨a, ha, haid⟩
          refine ⟨a, (List.mem_cons.1 ha).resolve_left ?_, haid⟩
          rintro rfl
          omega
        have hbelow : ∀ a ∈ rest, start + 1 ≤ a.id := by
          intro a ha
          have hlt := hl.1 a ha
          omega
        have hidx := ih hl.2 hbelow hrest ((List.mem_cons.1 hn).resolve_left hnc)
        rw [List.idxOf_cons_ne rest (Ne.symm hnc)]
        omega

namespace Lawful

/-- The nodes listed before another have lower numbers. -/
theorem lt_of_nodes_eq (hg : Lawful g) {before after : List Node} {m n : Node}
    (h : nodes g = before ++ n :: after) (hm : m ∈ before) : m.id < n.id := by
  have hall := hg.ascending
  rw [h, List.pairwise_append] at hall
  exact hall.2.2 m hm n List.mem_cons_self

/-- An ordinary node stands behind the ordinary nodes listed before it. This is the
    number that reading gives it, which only knows the nodes it has read. -/
theorem idxOf_ordinary (hg : Lawful g) {before after : List Node} {n : Node}
    (h : nodes g = before ++ n :: after) (hk : n.kind = .ordinary) :
    (ordinary g).idxOf n = (before.filter fun m => m.kind = .ordinary).length := by
  have hnot : n ∉ before.filter fun m => m.kind = .ordinary := by
    intro hn
    have hlt := hg.lt_of_nodes_eq h (List.mem_of_mem_filter hn)
    omega
  rw [ordinary, h, List.filter_append, List.filter_cons_of_pos (by simp [hk]),
    List.idxOf_append_of_notMem hnot, List.idxOf_cons_self, Nat.add_zero]

/-- The order of the nodes stays the same. The roots have the two lowest numbers before
    and after, and ordinary nodes are numbered in their order. -/
theorem renumbered_lt (hg : Lawful g) (serial : Nat) {a b : Node} (ha : a ∈ nodes g)
    (hb : b ∈ nodes g) (hab : a.id < b.id) :
    (renumbered serial g a).id < (renumbered serial g b).id := by
  rcases hg.kind_cases ha with ⟨_, rfl⟩ | ⟨_, rfl⟩ | ⟨hia, hka⟩ <;>
    rcases hg.kind_cases hb with ⟨_, rfl⟩ | ⟨_, rfl⟩ | ⟨hib, hkb⟩
  · -- Two roots are compared, or a root with an ordinary node, or two ordinary nodes.
    exact absurd hab (by simp)
  · simp [renumbered, rootNode, clinitNode, Graph.rootId, Graph.clinitId]
  · rw [renumbered_of_ordinary hkb]
    simp only [renumbered, rootNode, Graph.rootId]
    omega
  · simp [Graph.rootId, Graph.clinitId] at hab
  · exact absurd hab (by simp)
  · rw [renumbered_of_ordinary hkb]
    simp only [renumbered, clinitNode, Graph.clinitId]
    omega
  · simp only [Graph.rootId, Graph.clinitId] at hia hab
    omega
  · simp only at hia hab
    omega
  · rw [renumbered_of_ordinary hka, renumbered_of_ordinary hkb]
    have hlt := idxOf_lt_of_ascending (hg.ascending.filter _) (mem_ordinary.2 ⟨ha, hka⟩)
      (mem_ordinary.2 ⟨hb, hkb⟩) hab
    change (List.idxOf a (ordinary g) : Int) + 2 < (List.idxOf b (ordinary g) : Int) + 2
    unfold ordinary
    omega

/-- No two nodes come back with one number. -/
theorem renumbered_inj (hg : Lawful g) {serial : Nat} {a b : Node} (ha : a ∈ nodes g)
    (hb : b ∈ nodes g) (h : (renumbered serial g a).id = (renumbered serial g b).id) : a = b := by
  refine hg.eq_of_id ha hb ?_
  rcases Int.lt_trichotomy a.id b.id with hlt | heq | hlt
  · have := hg.renumbered_lt serial ha hb hlt
    omega
  · exact heq
  · have := hg.renumbered_lt serial hb ha hlt
    omega

/-- The root comes back under its number. -/
theorem renumbered_root (hg : Lawful g) (serial : Nat) {n : Node} (hn : n ∈ nodes g)
    (hid : n.id = Graph.rootId) : (renumbered serial g n).id = Graph.rootId := by
  rcases hg.kind_cases hn with ⟨_, rfl⟩ | ⟨_, rfl⟩ | ⟨hlt, _⟩
  · rfl
  · exact absurd hid (by simp [Graph.rootId, Graph.clinitId])
  · simp only [Graph.rootId, Graph.clinitId] at hid hlt
    omega

/-- The world-clinit node comes back under its number. -/
theorem renumbered_clinit (hg : Lawful g) (serial : Nat) {n : Node} (hn : n ∈ nodes g)
    (hid : n.id = Graph.clinitId) : (renumbered serial g n).id = Graph.clinitId := by
  rcases hg.kind_cases hn with ⟨_, rfl⟩ | ⟨_, rfl⟩ | ⟨hlt, _⟩
  · exact absurd hid (by simp [Graph.rootId, Graph.clinitId])
  · rfl
  · omega

/-- The ordinary nodes are numbered from 2 on. -/
theorem renumbered_getElem? (hg : Lawful g) (serial : Nat) {k : Nat} {n : Node}
    (hk : (ordinary g)[k]? = some n) : (renumbered serial g n).id = k + 2 := by
  have hnodup : (ordinary g).Nodup := nodup_of_ascending (hg.ascending.filter _)
  rcases List.getElem?_eq_some_iff.1 hk with ⟨hlt, rfl⟩
  rw [renumbered_of_ordinary (mem_ordinary.1 (List.getElem_mem hlt)).2,
    hnodup.idxOf_getElem k hlt]

/-- A node comes back with its reference. -/
theorem renumbered_ref (hg : Lawful g) (serial : Nat) {n : Node} (hn : n ∈ nodes g) :
    (renumbered serial g n).unit.ref = n.unit.ref := by
  rcases hg.kind_cases hn with ⟨_, rfl⟩ | ⟨_, rfl⟩ | ⟨_, hk⟩
  · rfl
  · rfl
  · rw [renumbered_of_ordinary hk]
    rfl

/-- A node comes back with the name of its context. -/
theorem renumbered_context (hg : Lawful g) (serial : Nat) {n : Node} (hn : n ∈ nodes g) :
    (renumbered serial g n).context.text = n.context.text := by
  rcases hg.kind_cases hn with ⟨_, rfl⟩ | ⟨_, rfl⟩ | ⟨_, hk⟩
  · rfl
  · rfl
  · rw [renumbered_of_ordinary hk]
    exact Context.text_ofName _

/-- Without gaps the numbers stay the same. The ordinary nodes then are numbered from 2
    on in the graph as well. -/
theorem renumbered_id_of_gapless (hg : Lawful g) (hgap : Gapless g) (serial : Nat) {n : Node}
    (hn : n ∈ nodes g) : (renumbered serial g n).id = n.id := by
  rcases hg.kind_cases hn with ⟨_, rfl⟩ | ⟨_, rfl⟩ | ⟨_, hk⟩
  · rfl
  · rfl
  · rw [renumbered_of_ordinary hk]
    refine id_eq_idxOf_of_gapless (hg.ascending.filter _) ?_ ?_ (mem_ordinary.2 ⟨hn, hk⟩)
    · intro a ha
      rcases mem_ordinary.1 ha with ⟨ha, hka⟩
      rcases hg.kind_cases ha with ⟨_, rfl⟩ | ⟨_, rfl⟩ | ⟨hlt, _⟩
      · exact absurd hka (by simp)
      · exact absurd hka (by simp)
      · simp only [Graph.clinitId] at hlt
        omega
    · -- From the root up to the node no number is missing, and only the roots are below two.
      intro b hb i hi hib
      rcases hgap.root with ⟨root, hroot, hid⟩
      simp only [Graph.rootId] at hid
      rcases hgap.between root hroot b (mem_ordinary.1 hb).1 i (by omega) hib with ⟨a, ha, rfl⟩
      refine ⟨a, mem_ordinary.2 ⟨ha, ?_⟩, rfl⟩
      rcases hg.kind_cases ha with ⟨_, rfl⟩ | ⟨_, rfl⟩ | ⟨_, hka⟩
      · simp [Graph.rootId] at hi
      · simp [Graph.clinitId] at hi
      · exact hka

end Lawful

end CallGraph

end CallAtlas
