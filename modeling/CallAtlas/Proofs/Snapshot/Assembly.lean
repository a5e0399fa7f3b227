import CallAtlas.Proofs.Snapshot.Replay

/-!
# What a Document Makes

Reading a document makes a graph by additions alone. The records may be in disorder. Two of
them may share a number, or a unit and context, and then a node is met again that was made
before, or the number of one node is given to another while the sites recorded under it stay
where they are. None of this shows in what is done to the graph: it starts from the two roots,
nodes are made only for pairs that have none, and everything else is added at nodes that are
there.

`Graph.Assembled` lists these additions, with the conditions under which they are made. What
is true of every graph that comes from a document is proved by going through that list, and
reading is taken apart only once, to show that it does nothing that is not on it.

## Main definitions

* `Graph.Assembled`: A graph that additions lead to, as reading a document makes them.
* `Document.Draft.Grounded`: A draft whose tables speak of its graph.

## Theorems

* `foldlM_keeps`: What every step of a fold keeps, the fold keeps.
* `Graph.Assembled.obtainable`: What a document makes could have been made by edits.
* `Document.Draft.nodeFor_cases`: What node a record stands for.
* `Document.Draft.Grounded.addNode`, `Document.Draft.Grounded.addEdge`,
  `Document.Draft.Grounded.addEntrypoint`: Each record adds what is on the list.
* `Document.assembled_of_decode`: A document makes an assembled graph.
-/

namespace CallAtlas

/-- What every step of a fold keeps, the fold keeps. -/
theorem foldlM_keeps {α β ε : Type} {f : β → α → Except ε β} {P : β → Prop}
    (hstep : ∀ {x b b'}, P b → f b x = .ok b' → P b') :
    ∀ (l : List α) {b b' : β}, P b → l.foldlM f b = .ok b' → P b' := by
  intro l
  induction l with
  | nil =>
      intro b b' hb hl
      rw [← Except.ok.inj hl]
      exact hb
  | cons x rest ih =>
      intro b b' hb hl
      rw [List.foldlM_cons, except_bind_eq_ok_iff] at hl
      rcases hl with ⟨b₁, hx, hrest⟩
      exact ih (hstep hb hx) hrest

namespace Graph

/-! ## Additions -/

/-- A graph that additions lead to from the two roots. Nodes are made for units known by
    their reference in contexts known by their name, and sites have kinds with a name. -/
inductive Assembled (serial : Nat) : Graph → Prop
  | fresh : Assembled serial (fresh serial)
  | create {g : Graph} {ref : MethodRef} {name : String} : Assembled serial g →
      g.lookup (.named ref) (.ofName name) = none →
      Assembled serial (g.create (.named ref) (.ofName name) .ordinary).1
  | recordSite {g : Graph} {i : Int} {site : CallSite} : Assembled serial g → g.Live i →
      site.kind ∈ Dispatch.named → Assembled serial (g.recordSite i site)
  | link {g : Graph} {src dst : Int} : Assembled serial g → g.Live src → g.Live dst →
      Assembled serial (g.link src dst)
  | call {g : Graph} {src dst : Int} {site : CallSite} : Assembled serial g → g.Live src →
      g.Live dst → site.kind ∈ Dispatch.named →
      Assembled serial ((g.addTarget src site dst).link src dst)
  | markEntrypoint {g : Graph} {i : Int} : Assembled serial g → g.Live i →
      Assembled serial (g.markEntrypoint i)

namespace Assembled

variable {serial : Nat} {g : Graph}

/-- Additions do not freeze a graph, so each of them may be followed by another. -/
theorem thawed (h : Assembled serial g) : g.frozen = false := by
  induction h with
  | fresh => rfl
  | create _ _ ih => exact ih
  | recordSite _ _ _ ih => exact (keeps_recordSite _ _ _).frozen.trans ih
  | link _ _ _ ih => exact (keeps_link _ _ _).frozen.trans ih
  | call _ _ _ _ ih => exact (keeps_call _ _ _ _).frozen.trans ih
  | markEntrypoint _ _ ih => exact (frozen_markEntrypoint _ _).trans ih

/-- Additions keep the serial that the graph was started with. -/
theorem serial_eq (h : Assembled serial g) : g.serial = serial := by
  induction h with
  | fresh => rfl
  | create _ _ ih => exact ih
  | recordSite _ _ _ ih => exact (keeps_recordSite _ _ _).serial.trans ih
  | link _ _ _ ih => exact (keeps_link _ _ _).serial.trans ih
  | call _ _ _ _ ih => exact (keeps_call _ _ _ _).serial.trans ih
  | markEntrypoint _ _ ih => exact (serial_markEntrypoint _ _).trans ih

/-- What additions make could have been made by edits. Each addition is an edit that is
    not refused: its nodes are there, and the graph is not frozen. -/
theorem obtainable (h : Assembled serial g) : g.Obtainable := by
  induction h with
  | fresh => exact obtainable_fresh serial
  | create h hnew ih => exact ih.create h.thawed hnew
  | recordSite h hi _ ih => exact ih.recordSite h.thawed hi _
  | link h hsrc hdst ih => exact ih.link h.thawed hsrc hdst
  | call h hsrc hdst _ ih => exact ih.call h.thawed hsrc hdst _
  | markEntrypoint _ hi ih => exact ih.markEntrypoint hi

theorem wellFormed (h : Assembled serial g) : g.WellFormed := h.obtainable.wellFormed

end Assembled

end Graph

/-! ## Reading a document -/

namespace Document.Draft

variable {serial : Nat} {d d' : Draft}

theorem mem_named_of_siteOf {r : SiteRecord} {s : CallSite} (h : siteOf r = some s) :
    s.kind ∈ Dispatch.named := by
  rcases Option.map_eq_some_iff.1 h with ⟨kind, hkind, rfl⟩
  exact List.mem_of_find?_eq_some hkind

/-- The reference that a record gives its node. -/
def refOf (r : NodeRecord) : MethodRef := ⟨r.owner, r.name, r.signature⟩

/-- What node a record stands for: a root, a node that was made before, or a new one.
    Everything about the reading of a node is proved by these four cases. -/
theorem nodeFor_cases (g : Graph) (r : NodeRecord) :
    (r.kind = NodeKind.fakeRoot.text ∧ nodeFor g r = (g, Graph.rootId)) ∨
    (r.kind ≠ NodeKind.fakeRoot.text ∧ r.kind = NodeKind.fakeWorldClinit.text ∧
      nodeFor g r = (g, Graph.clinitId)) ∨
    (r.kind ≠ NodeKind.fakeRoot.text ∧ r.kind ≠ NodeKind.fakeWorldClinit.text ∧
      ((∃ n, g.lookup (.named (refOf r)) (.ofName r.context) = some n ∧
          nodeFor g r = (g, n.id)) ∨
        (g.lookup (.named (refOf r)) (.ofName r.context) = none ∧
          nodeFor g r = ((g.create (.named (refOf r)) (.ofName r.context) .ordinary).1,
            (g.create (.named (refOf r)) (.ofName r.context) .ordinary).2.id)))) := by
  unfold nodeFor
  by_cases hroot : r.kind = NodeKind.fakeRoot.text
  · exact Or.inl ⟨hroot, if_pos hroot⟩
  · rw [if_neg hroot]
    by_cases hclinit : r.kind = NodeKind.fakeWorldClinit.text
    · exact Or.inr (Or.inl ⟨hroot, hclinit, if_pos hclinit⟩)
    · rw [if_neg hclinit]
      refine Or.inr (Or.inr ⟨hroot, hclinit, ?_⟩)
      -- The record of an ordinary node is looked up, and only a new pair makes a node.
      cases hlookup : g.lookup (.named (refOf r)) (.ofName r.context) with
      | some n =>
          rw [refOf] at hlookup
          exact Or.inl ⟨n, rfl, by simp only [hlookup]⟩
      | none =>
          rw [refOf] at hlookup
          exact Or.inr ⟨rfl, by simp only [hlookup]; rfl⟩

/-- The tables of a draft speak of its graph: numbers stand for nodes, and the sites
    kept under them have kinds with a name. -/
structure Grounded (serial : Nat) (d : Draft) : Prop where
  assembled : d.graph.Assembled serial
  live : ∀ {i id}, d.numbers.find? i = some id → d.graph.Live id
  named : ∀ {i s}, s ∈ d.sitesOf i → s.kind ∈ Dispatch.named

theorem grounded_fresh (serial : Nat) : Grounded serial { graph := Graph.fresh serial } where
  assembled := .fresh
  live h := absurd h (by simp)
  named h := absurd h (by simp [sitesOf])

/-- Additions to the graph leave the tables alone. -/
theorem Grounded.grow (hd : Grounded serial d) {graph : Graph} (hgraph : graph.Assembled serial)
    (hlive : ∀ i, d.graph.Live i → graph.Live i) : Grounded serial { d with graph } :=
  ⟨hgraph, fun h => hlive _ (hd.live h), hd.named⟩

/-- The node of a record is there once the record was met, and no node goes. -/
theorem nodeFor_assembled {g : Graph} (hg : g.Assembled serial) (r : NodeRecord) :
    (nodeFor g r).1.Assembled serial ∧ (nodeFor g r).1.Live (nodeFor g r).2 ∧
      ∀ n, g.contains n → (nodeFor g r).1.contains n := by
  have hwf := hg.wellFormed
  rcases nodeFor_cases g r with ⟨_, h⟩ | ⟨_, _, h⟩ | ⟨_, _, ⟨n, hn, h⟩ | ⟨hnew, h⟩⟩
  · rw [h]
    exact ⟨hg, Graph.live_iff_node?.2 (by rw [hwf.root]; rfl), fun _ hn => hn⟩
  · rw [h]
    exact ⟨hg, Graph.live_iff_node?.2 (by rw [hwf.clinit]; rfl), fun _ hn => hn⟩
  · rw [h]
    have hin := (hwf.lookup_eq_some_iff.1 hn).1
    exact ⟨hg, Graph.live_of_contains (Graph.contains_iff.2 hin), fun _ hm => hm⟩
  · -- The new node is there, and so are those that were there before.
    rw [h]
    exact ⟨hg.create hnew, Graph.live_of_contains (Graph.contains_create.2 (Or.inr rfl)),
      fun _ hn => Graph.contains_create.2 (Or.inl hn)⟩

theorem live_of_contains_imp {g g' : Graph} (hg : g.WellFormed)
    (h : ∀ n, g.contains n → g'.contains n) (i : Int) (hi : g.Live i) : g'.Live i := by
  rcases hg.exists_contains hi with ⟨n, hn, rfl⟩
  exact Graph.live_of_contains (h n hn)

/-- A record gives its number to its node. -/
theorem Grounded.meetNode (hd : Grounded serial d) (r : NodeRecord) :
    Grounded serial { d with
      graph := (nodeFor d.graph r).1
      numbers := d.numbers.insert r.id (nodeFor d.graph r).2 } := by
  rcases nodeFor_assembled hd.assembled r with ⟨hgraph, hlive, hkept⟩
  refine ⟨hgraph, fun {i id} h => ?_, hd.named⟩
  rw [Table.find?_insert] at h
  split at h
  · rw [← Option.some.inj h]
    exact hlive
  · exact live_of_contains_imp hd.assembled.wellFormed hkept _ (hd.live h)

/-- A site is added exactly if its kind has a name. -/
theorem addSite_eq_ok_iff {number id : Int} {r : SiteRecord} :
    addSite number id d r = .ok d' ↔ ∃ s, siteOf r = some s ∧
      { d with
        graph := d.graph.recordSite id s
        sites := d.sites.insert number (d.sitesOf number ++ [s]) } = d' := by
  unfold addSite
  cases siteOf r with
  | none => simp
  | some s => simp [sitesOf]

/-- A recorded site is kept under its number and recorded at its node. -/
theorem Grounded.addSite {number id : Int} {r : SiteRecord} (hd : Grounded serial d)
    (hid : d.graph.Live id) (h : addSite number id d r = .ok d') :
    Grounded serial d' ∧ d'.graph.Live id := by
  rcases addSite_eq_ok_iff.1 h with ⟨s, hs, rfl⟩
  have hkeeps := Graph.keeps_recordSite d.graph id s
  refine ⟨⟨hd.assembled.recordSite hid (mem_named_of_siteOf hs),
    fun hi => (hkeeps.live_iff _).2 (hd.live hi), fun {i t} ht => ?_⟩, (hkeeps.live_iff _).2 hid⟩
  simp only [sitesOf, Table.find?_insert] at ht
  split at ht
  · rcases List.mem_append.1 ht with ht | ht
    · exact hd.named ht
    · rw [List.mem_singleton.1 ht]
      exact mem_named_of_siteOf hs
  · exact hd.named ht

/-- One more node is read. -/
theorem Grounded.addNode {r : NodeRecord} (hd : Grounded serial d) (h : d.addNode r = .ok d') :
    Grounded serial d' := by
  have hlive := (nodeFor_assembled hd.assembled r).2.1
  refine (foldlM_keeps (P := fun d => Grounded serial d ∧ d.graph.Live _) ?_ r.sites
    ⟨hd.meetNode r, hlive⟩ h).1
  exact fun hb hx => hb.1.addSite hb.2 hx

/-- A call is added exactly if its position is one among the known sites of the caller. -/
theorem addCall_eq_ok_iff {r : EdgeRecord} {src dst i : Int} :
    addCall r src dst d i = .ok d' ↔ ∃ s, 0 ≤ i ∧ (d.sitesOf r.src)[i.toNat]? = some s ∧
      { d with graph := (d.graph.addTarget src s dst).link src dst } = d' := by
  have hknown : (d.sites.find? r.src).getD [] = d.sitesOf r.src := rfl
  simp only [addCall, hknown]
  by_cases hi : i < 0
  · simp [hi, Int.not_le.2 hi]
  · rw [if_neg hi]
    have hi' : 0 ≤ i := by omega
    cases (d.sitesOf r.src)[i.toNat]? with
    | none => simp
    | some s => simp [hi']

/-- A position among the known sites becomes a call. -/
theorem Grounded.addCall {r : EdgeRecord} {src dst i : Int} (hd : Grounded serial d)
    (hsrc : d.graph.Live src) (hdst : d.graph.Live dst) (h : addCall r src dst d i = .ok d') :
    Grounded serial d' ∧ d'.graph.Live src ∧ d'.graph.Live dst := by
  rcases addCall_eq_ok_iff.1 h with ⟨s, _, hs, rfl⟩
  have hkeeps := Graph.keeps_call d.graph src s dst
  have hnamed := hd.named (List.mem_of_getElem? hs)
  exact ⟨hd.grow (hd.assembled.call hsrc hdst hnamed) fun i => (hkeeps.live_iff i).2,
    (hkeeps.live_iff _).2 hsrc, (hkeeps.live_iff _).2 hdst⟩

/-- An edge is added if both ends are known. Without sites it is a plain edge, and else
    one call is added for each of them. -/
theorem addEdge_eq_ok_iff {r : EdgeRecord} :
    d.addEdge r = .ok d' ↔ ∃ src dst, d.numbers.find? r.src = some src ∧
      d.numbers.find? r.dst = some dst ∧
      ((r.sites = [] ∧ { d with graph := d.graph.link src dst } = d') ∨
        (r.sites ≠ [] ∧ r.sites.foldlM (addCall r src dst) d = .ok d')) := by
  unfold addEdge
  cases d.numbers.find? r.src with
  | none => simp
  | some src =>
      cases d.numbers.find? r.dst with
      | none => simp
      | some dst =>
          by_cases hempty : r.sites = []
          · simp [hempty]
          · simp [hempty]

/-- One more edge is read. -/
theorem Grounded.addEdge {r : EdgeRecord} (hd : Grounded serial d) (h : d.addEdge r = .ok d') :
    Grounded serial d' := by
  rcases addEdge_eq_ok_iff.1 h with ⟨src, dst, hsrc, hdst, ⟨_, rfl⟩ | ⟨_, hcalls⟩⟩
  · exact hd.grow (hd.assembled.link (hd.live hsrc) (hd.live hdst))
      fun i => ((Graph.keeps_link d.graph src dst).live_iff i).2
  · -- Each call finds both ends, since the one before it has removed no node.
    refine (foldlM_keeps
      (P := fun d => Grounded serial d ∧ d.graph.Live src ∧ d.graph.Live dst) ?_ r.sites
      ⟨hd, hd.live hsrc, hd.live hdst⟩ hcalls).1
    exact fun hb hx => hb.1.addCall hb.2.1 hb.2.2 hx

/-- An entrypoint is added exactly if its number is known. -/
theorem addEntrypoint_eq_ok_iff {number : Int} :
    d.addEntrypoint number = .ok d' ↔ ∃ id, d.numbers.find? number = some id ∧
      { d with graph := d.graph.markEntrypoint id } = d' := by
  unfold addEntrypoint
  cases d.numbers.find? number with
  | none => simp
  | some id => simp

/-- An entrypoint is registered at the node of its number. -/
theorem Grounded.addEntrypoint {number : Int} (hd : Grounded serial d)
    (h : d.addEntrypoint number = .ok d') : Grounded serial d' := by
  rcases addEntrypoint_eq_ok_iff.1 h with ⟨id, hid, rfl⟩
  refine hd.grow (hd.assembled.markEntrypoint (hd.live hid)) fun i hi => ?_
  rw [Graph.Live, Graph.slot?_markEntrypoint]
  exact hi

end Document.Draft

namespace Document

variable {serial : Nat} {doc : Document} {g : Graph}

/-- A document is read record by record: nodes, edges and entrypoints. Success is taken
    apart into the three drafts on the way, and the last one holds the result. -/
theorem decode_eq_ok_iff : decode serial doc = .ok g ↔ doc.schema = currentSchema ∧
    ∃ d₁, doc.nodes.foldlM Draft.addNode { graph := Graph.fresh serial } = .ok d₁ ∧
    ∃ d₂, doc.edges.foldlM Draft.addEdge d₁ = .ok d₂ ∧
    ∃ d₃, doc.entrypoints.foldlM Draft.addEntrypoint d₂ = .ok d₃ ∧ d₃.graph = g := by
  unfold decode
  by_cases hschema : doc.schema = currentSchema
  · simp only [hschema, ne_eq, not_true_eq_false, if_false, true_and,
      except_bind_eq_ok_iff, pure, Except.pure, Except.ok.injEq]
  · simp [hschema, throw, throwThe, MonadExceptOf.throw, bind, Except.bind]

/-- A document makes an assembled graph. That the tables speak of the graph is kept by
    every record, in each of the three folds. -/
theorem assembled_of_decode (h : decode serial doc = .ok g) : g.Assembled serial := by
  rcases decode_eq_ok_iff.1 h with ⟨_, d₁, hnodes, d₂, hedges, d₃, hentries, rfl⟩
  have h₁ := foldlM_keeps (P := Draft.Grounded serial) (fun hb hx => hb.addNode hx) doc.nodes
    (Draft.grounded_fresh serial) hnodes
  have h₂ := foldlM_keeps (P := Draft.Grounded serial) (fun hb hx => hb.addEdge hx) doc.edges h₁
    hedges
  have h₃ := foldlM_keeps (P := Draft.Grounded serial) (fun hb hx => hb.addEntrypoint hx)
    doc.entrypoints h₂ hentries
  exact h₃.assembled

end Document

end CallAtlas
