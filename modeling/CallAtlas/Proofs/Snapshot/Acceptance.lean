import CallAtlas.Proofs.Snapshot.Assembly

/-!
# Which Documents Describe a Graph

A document comes from outside, and its records may say anything. What has to hold is little:
the version is known, the sites have kinds with a name, edges and entrypoints name numbers
that some record has, and the positions of an edge are positions among the sites that were
recorded under the number of its caller. These sites are counted over all records with that
number, whatever nodes these stand for.

Of a draft only its tables matter for this: which numbers were read, and how many sites were
recorded under each. `Draft.Tabled` says what they are after some records. A record that is read
in part is a record with fewer sites, so that the invariant needs no case for it.

That nothing else can go wrong is a statement about a reader that asks before it does anything.
`Guarded` is one: it keeps the nodes and not their numbers, makes every addition by an edit that
may be refused, and takes a node out of a slot only if there is one. It comes to the same graphs
and the same faults, since the graph is never frozen, no node that was read ever goes, and the
index of a well-formed graph names nodes.

## Main definitions

* `Accepts`: An outcome is a success exactly under a condition.
* `Document.Consistent`: What has to hold between the records of a document.
* `Document.Draft.Tabled`: The tables of a draft after some records.
* `Document.Mishap`: What may go wrong for a reader that asks.
* `Document.Guarded.decode`: Reading with edits that may be refused.
* `Document.Agrees`: Two outcomes are related results, or one and the same fault.
* `Document.Mirrors`: What a reader that asks keeps is what a draft keeps.

## Theorems

* `Accepts.foldlM`: A fold succeeds exactly if each of its elements is accepted.
* `Document.Draft.Tabled.addNode`, `Document.Draft.Tabled.addEdge`,
  `Document.Draft.Tabled.addEntrypoint`: Which records are accepted.
* `Document.exists_decode_iff`: A document is accepted exactly if it is consistent.
* `Document.Guarded.decode_eq`: A reader that asks has nothing else to report.
* `Document.decode_accepts_consistent`: Both, and what is made of an accepted document.
-/

namespace CallAtlas

/-! ## Acceptance -/

/-- An outcome is a success exactly under a condition, and then something holds of the result. -/
def Accepts {ε β : Type} (x : Except ε β) (p : Prop) (Q : β → Prop) : Prop :=
  ((∃ b, x = .ok b) ↔ p) ∧ ∀ b, x = .ok b → Q b

namespace Accepts

variable {ε α β γ : Type} {x : Except ε β} {p q : Prop} {Q : β → Prop} {R : γ → Prop}

/-- Acceptance from a lemma that says when a step succeeds and with what. -/
theorem of_iff {C : α → Prop} {make : α → β} (h : ∀ {b}, x = .ok b ↔ ∃ a, C a ∧ make a = b)
    (hp : (∃ a, C a) ↔ p) (hQ : ∀ a, C a → Q (make a)) : Accepts x p Q := by
  refine ⟨Iff.trans ⟨?_, ?_⟩ hp, fun b hb => ?_⟩
  · rintro ⟨b, hb⟩
    rcases h.1 hb with ⟨a, ha, _⟩
    exact ⟨a, ha⟩
  · rintro ⟨a, ha⟩
    exact ⟨make a, h.2 ⟨a, ha, rfl⟩⟩
  · rcases h.1 hb with ⟨a, ha, rfl⟩
    exact hQ a ha

/-- What two steps accept one after the other. The second may rely on what holds after the first. -/
theorem bind {f : β → Except ε γ} (hx : Accepts x p Q) (hf : ∀ b, Q b → Accepts (f b) q R) :
    Accepts (x >>= f) (p ∧ q) R := by
  simp only [Accepts, except_bind_eq_ok_iff]
  refine ⟨⟨?_, ?_⟩, ?_⟩
  · rintro ⟨c, b, hb, hc⟩
    exact ⟨hx.1.1 ⟨b, hb⟩, (hf b (hx.2 b hb)).1.1 ⟨c, hc⟩⟩
  · rintro ⟨hp, hq⟩
    rcases hx.1.2 hp with ⟨b, hb⟩
    rcases (hf b (hx.2 b hb)).1.2 hq with ⟨c, hc⟩
    exact ⟨c, b, hb, hc⟩
  · rintro c ⟨b, hb, hc⟩
    exact (hf b (hx.2 b hb)).2 c hc

/-- A fold succeeds exactly if each of its elements is accepted, given an invariant
    under which a step does. Whether an element is accepted must not depend on those
    before it, and this is what the invariant has to bring about. -/
theorem foldlM {f : β → α → Except ε β} {accepted : α → Prop} {P : List α → β → Prop}
    (hstep : ∀ done x b, P done b → Accepts (f b x) (accepted x) (P (done ++ [x]))) :
    ∀ l done b, P done b → Accepts (l.foldlM f b) (∀ x ∈ l, accepted x) (P (done ++ l)) := by
  intro l
  induction l with
  | nil =>
      intro done b hb
      rw [List.append_nil]
      refine ⟨iff_of_true ⟨b, rfl⟩ (fun x hx => absurd hx List.not_mem_nil), fun b' hb' => ?_⟩
      rw [← Except.ok.inj hb']
      exact hb
  | cons x rest ih =>
      intro done b hb
      rw [List.foldlM_cons, List.forall_mem_cons]
      -- The first element is accepted, and the rest is folded with one more done.
      refine (hstep done x b hb).bind fun b' hb' => ?_
      have hrest := ih (done ++ [x]) b' hb'
      rw [List.append_assoc, List.singleton_append] at hrest
      exact hrest

end Accepts

namespace Document

/-! ## Consistent documents -/

/-- The sites recorded under a number, over all records that have it. -/
def sitesUnder (rs : List NodeRecord) (i : Int) : List SiteRecord :=
  (rs.filter fun r => r.id = i).flatMap fun r => r.sites

/-- What has to hold between the records of a document. -/
structure Consistent (doc : Document) : Prop where
  schema : doc.schema = "1"
  named : ∀ r ∈ doc.nodes, ∀ s ∈ r.sites,
    s.kind ∈ ["static", "special", "virtual", "interface", "dynamic"]
  ends : ∀ e ∈ doc.edges, (∃ r ∈ doc.nodes, r.id = e.src) ∧ ∃ r ∈ doc.nodes, r.id = e.dst
  positions : ∀ e ∈ doc.edges, ∀ i ∈ e.sites, 0 ≤ i ∧ i < (sitesUnder doc.nodes e.src).length
  entered : ∀ i ∈ doc.entrypoints, ∃ r ∈ doc.nodes, r.id = i

theorem consistent_iff {doc : Document} : doc.Consistent ↔ doc.schema = "1" ∧
    (∀ r ∈ doc.nodes, ∀ s ∈ r.sites,
      s.kind ∈ ["static", "special", "virtual", "interface", "dynamic"]) ∧
    (∀ e ∈ doc.edges, ((∃ r ∈ doc.nodes, r.id = e.src) ∧ ∃ r ∈ doc.nodes, r.id = e.dst) ∧
      ∀ i ∈ e.sites, 0 ≤ i ∧ i < (sitesUnder doc.nodes e.src).length) ∧
    ∀ i ∈ doc.entrypoints, ∃ r ∈ doc.nodes, r.id = i :=
  ⟨fun h => ⟨h.schema, h.named, fun e he => ⟨h.ends e he, h.positions e he⟩, h.entered⟩,
    fun h => ⟨h.1, h.2.1, fun e he => (h.2.2.1 e he).1, fun e he => (h.2.2.1 e he).2, h.2.2.2⟩⟩

instance (doc : Document) : Decidable doc.Consistent := decidable_of_iff _ consistent_iff.symm

theorem sitesUnder_concat (rs : List NodeRecord) (r : NodeRecord) (i : Int) :
    sitesUnder (rs ++ [r]) i = sitesUnder rs i ++ if r.id = i then r.sites else [] := by
  by_cases h : r.id = i
  · simp [sitesUnder, h]
  · simp [sitesUnder, h]

namespace Draft

variable {d : Draft} {rs : List NodeRecord}

/-- A site can be read if its kind is one of the five that have a name. -/
theorem isSome_siteOf_iff {r : SiteRecord} : (siteOf r).isSome ↔
    r.kind ∈ ["static", "special", "virtual", "interface", "dynamic"] := by
  rw [siteOf, Option.isSome_map, Dispatch.ofName?, List.find?_isSome]
  simp only [Dispatch.named, beq_iff_eq, List.mem_cons, List.not_mem_nil, or_false,
    exists_eq_or_imp, exists_eq_left, Dispatch.text]
  simp only [eq_comm]

/-- The tables of a draft after some records of nodes. -/
structure Tabled (rs : List NodeRecord) (d : Draft) : Prop where
  number : ∀ i, (d.numbers.find? i).isSome ↔ ∃ r ∈ rs, r.id = i
  length : ∀ i, (d.sitesOf i).length = (sitesUnder rs i).length

theorem tabled_fresh (serial : Nat) : Tabled [] { graph := Graph.fresh serial } where
  number i := by simp
  length i := rfl

/-- A record is met with none of its sites. A number may have several records, and a
    later one does not take away the sites of an earlier. -/
theorem Tabled.meetNode (hd : Tabled rs d) (r : NodeRecord) (graph : Graph) (id : Int) :
    Tabled (rs ++ [{ r with sites := [] }])
      { d with graph, numbers := d.numbers.insert r.id id } where
  number i := by
    simp only [Table.find?_insert, List.mem_append, List.mem_singleton]
    by_cases h : r.id = i
    · simp [h]
    · simp [h, hd.number i, or_and_right, exists_or]
  length i := by
    rw [sitesUnder_concat, ite_self, List.append_nil]
    exact hd.length i

/-- One more site of a record is accepted if its kind has a name. -/
theorem Tabled.addSite {r : NodeRecord} {done : List SiteRecord}
    (hd : Tabled (rs ++ [{ r with sites := done }]) d) (id : Int) (s : SiteRecord) :
    Accepts (addSite r.id id d s) (siteOf s).isSome
      (Tabled (rs ++ [{ r with sites := done ++ [s] }])) := by
  refine .of_iff addSite_eq_ok_iff Option.isSome_iff_exists.symm
    fun t _ => ⟨fun i => ?_, fun i => ?_⟩
  · refine (hd.number i).trans ?_
    simp only [List.mem_append, List.mem_singleton, or_and_right, exists_or, exists_eq_left]
  · have hold := hd.length i
    rw [sitesUnder_concat, List.length_append, sitesOf] at hold
    rw [sitesUnder_concat, List.length_append]
    simp only [sitesOf, Table.find?_insert]
    -- The list under the number of the record grows by one, and no other list does.
    by_cases hi : r.id = i
    · simp only [hi, if_true, Option.getD_some, List.length_append, List.length_singleton] at hold ⊢
      omega
    · simp only [hi, if_false] at hold ⊢
      exact hold

/-- One more record is accepted if its sites have kinds with a name. -/
theorem Tabled.addNode (hd : Tabled rs d) (r : NodeRecord) :
    Accepts (d.addNode r) (∀ s ∈ r.sites, (siteOf s).isSome) (Tabled (rs ++ [r])) := by
  refine .foldlM (P := fun done d => Tabled (rs ++ [{ r with sites := done }]) d) ?_ r.sites []
    _ (hd.meetNode r _ _)
  exact fun done s b hb => hb.addSite _ s

/-- One more call is accepted if its position is there. -/
theorem Tabled.addCall (hd : Tabled rs d) (r : EdgeRecord) (src dst i : Int) :
    Accepts (addCall r src dst d i) (0 ≤ i ∧ i < (sitesUnder rs r.src).length) (Tabled rs) := by
  have hiff : ∀ {d'}, Draft.addCall r src dst d i = .ok d' ↔
      ∃ s, (0 ≤ i ∧ (d.sitesOf r.src)[i.toNat]? = some s) ∧
        { d with graph := (d.graph.addTarget src s dst).link src dst } = d' := by
    simp only [addCall_eq_ok_iff, and_assoc, implies_true]
  refine .of_iff hiff ?_ fun s _ => ⟨hd.number, hd.length⟩
  rw [← hd.length, exists_and_left]
  refine and_congr_right fun hi => ?_
  rw [← Option.isSome_iff_exists, isSome_getElem?]
  omega

/-- One more edge is accepted if its ends are numbers of records and its positions are there. -/
theorem Tabled.addEdge (hd : Tabled rs d) (r : EdgeRecord) :
    Accepts (d.addEdge r) (((∃ n ∈ rs, n.id = r.src) ∧ ∃ n ∈ rs, n.id = r.dst) ∧
      ∀ i ∈ r.sites, 0 ≤ i ∧ i < (sitesUnder rs r.src).length) (Tabled rs) := by
  -- Positions are looked up in a table that calls do not change.
  have hcalls : ∀ src dst, Accepts (r.sites.foldlM (Draft.addCall r src dst) d)
      (∀ i ∈ r.sites, 0 ≤ i ∧ i < (sitesUnder rs r.src).length) (Tabled rs) := fun src dst =>
    .foldlM (P := fun _ => Tabled rs) (fun _ i b hb => hb.addCall r src dst i) r.sites [] d hd
  simp only [← hd.number, Option.isSome_iff_exists]
  refine ⟨⟨?_, ?_⟩, fun d' h => ?_⟩
  · rintro ⟨d', h⟩
    rcases addEdge_eq_ok_iff.1 h with ⟨src, dst, hsrc, hdst, ⟨hempty, _⟩ | ⟨_, hfold⟩⟩
    · exact ⟨⟨⟨src, hsrc⟩, ⟨dst, hdst⟩⟩, by simp [hempty]⟩
    · exact ⟨⟨⟨src, hsrc⟩, ⟨dst, hdst⟩⟩, (hcalls src dst).1.1 ⟨d', hfold⟩⟩
  · rintro ⟨⟨⟨src, hsrc⟩, ⟨dst, hdst⟩⟩, hpositions⟩
    by_cases hempty : r.sites = []
    · exact ⟨_, addEdge_eq_ok_iff.2 ⟨src, dst, hsrc, hdst, Or.inl ⟨hempty, rfl⟩⟩⟩
    · rcases (hcalls src dst).1.2 hpositions with ⟨d', hfold⟩
      exact ⟨d', addEdge_eq_ok_iff.2 ⟨src, dst, hsrc, hdst, Or.inr ⟨hempty, hfold⟩⟩⟩
  · rcases addEdge_eq_ok_iff.1 h with ⟨src, dst, _, _, ⟨_, rfl⟩ | ⟨_, hfold⟩⟩
    · exact ⟨hd.number, hd.length⟩
    · exact (hcalls src dst).2 d' hfold

/-- One more entrypoint is accepted if it is the number of a record. -/
theorem Tabled.addEntrypoint (hd : Tabled rs d) (i : Int) :
    Accepts (d.addEntrypoint i) (∃ n ∈ rs, n.id = i) (Tabled rs) := by
  rw [← hd.number i]
  exact .of_iff addEntrypoint_eq_ok_iff Option.isSome_iff_exists.symm
    fun id _ => ⟨hd.number, hd.length⟩

end Draft

/-- A document is accepted exactly if it is consistent. The tables of a draft depend on
    the records of nodes alone, so what edges and entrypoints need can be said of the
    document. -/
theorem exists_decode_iff {serial : Nat} {doc : Document} :
    (∃ g, decode serial doc = .ok g) ↔ doc.Consistent := by
  have hnodes := Accepts.foldlM (P := Draft.Tabled) (fun _ r b hb => hb.addNode r) doc.nodes []
    _ (Draft.tabled_fresh serial)
  -- Edges and entrypoints are read when all nodes are, and leave the tables alone.
  have hedges := fun d => Accepts.foldlM (P := fun _ => Draft.Tabled doc.nodes)
    (fun _ r b hb => hb.addEdge r) doc.edges [] d
  have hentries := fun d => Accepts.foldlM (P := fun _ => Draft.Tabled doc.nodes)
    (fun _ r b hb => hb.addEntrypoint r) doc.entrypoints [] d
  have hall := (hnodes.bind fun d hd => (hedges d hd).bind hentries).1
  simp only [except_bind_eq_ok_iff, Draft.isSome_siteOf_iff] at hall
  rw [consistent_iff, ← hall]
  constructor
  · rintro ⟨g, h⟩
    rcases decode_eq_ok_iff.1 h with ⟨hschema, d₁, h₁, d₂, h₂, d₃, h₃, _⟩
    exact ⟨hschema, d₃, d₁, h₁, d₂, h₂, h₃⟩
  · rintro ⟨hschema, d₃, d₁, h₁, d₂, h₂, h₃⟩
    exact ⟨d₃.graph, decode_eq_ok_iff.2 ⟨hschema, d₁, h₁, d₂, h₂, d₃, h₃, rfl⟩⟩

/-! ## A reader that asks -/

/-- What may go wrong for a reader that asks: a fault of the document, an edit that is
    refused, or a slot that should hold a node and does not. -/
inductive Mishap where
  | fault (e : DocumentError)
  | refused (e : GraphError)
  | emptySlot (id : Int)
deriving DecidableEq

/-- A graph in the making, with the node and the sites that each recorded number stands for. -/
structure Guarded where
  graph : Graph
  nodes : Table Int Node := .empty
  sites : Table Int (List CallSite) := .empty

namespace Guarded

/-- The node in a slot. -/
def nodeAt (g : Graph) (id : Int) : Except Mishap Node :=
  match g.node? id with
  | some n => .ok n
  | none => .error (.emptySlot id)

/-- The node that a record stands for. What the index names is taken out of its slot. -/
def nodeFor (g : Graph) (r : NodeRecord) : Except Mishap (Graph × Node) :=
  if r.kind = NodeKind.fakeRoot.text then (nodeAt g Graph.rootId).map (g, ·)
  else if r.kind = NodeKind.fakeWorldClinit.text then (nodeAt g Graph.clinitId).map (g, ·)
  else
    let unit : CodeUnit := .named (Draft.refOf r)
    let context := Context.ofName r.context
    match g.index.find? (unit, context) with
    | some id => (nodeAt g id).map (g, ·)
    | none => (g.findOrCreate (some unit) (some context)).mapError .refused

/-- Adds a recorded site by the edit for sites. -/
def addSite (number : Int) (n : Node) (c : Guarded) (r : SiteRecord) : Except Mishap Guarded :=
  match Draft.siteOf r with
  | none => .error (.fault (.unknownDispatch number r.kind))
  | some s => do
    let graph ← (c.graph.addSite (some n) s).mapError .refused
    return { c with
      graph, sites := c.sites.insert number (((c.sites.find? number).getD []) ++ [s]) }

/-- Adds a recorded node with its sites. -/
def addNode (c : Guarded) (r : NodeRecord) : Except Mishap Guarded := do
  let (graph, n) ← nodeFor c.graph r
  r.sites.foldlM (addSite r.id n) { c with graph, nodes := c.nodes.insert r.id n }

/-- Attributes an edge to the site at a position by the edit for calls. -/
def addCall (r : EdgeRecord) (src dst : Node) (c : Guarded) (i : Int) : Except Mishap Guarded :=
  match if i < 0 then none else ((c.sites.find? r.src).getD [])[i.toNat]? with
  | none => .error (.fault (.siteOutOfRange r.src r.dst i))
  | some s => do
    let graph ← (c.graph.addCall (some src) s (some dst)).mapError .refused
    return { c with graph }

/-- Adds a recorded edge. -/
def addEdge (c : Guarded) (r : EdgeRecord) : Except Mishap Guarded :=
  match c.nodes.find? r.src, c.nodes.find? r.dst with
  | some src, some dst =>
    if r.sites.isEmpty then do
      let graph ← (c.graph.addEdge (some src) (some dst)).mapError .refused
      return { c with graph }
    else r.sites.foldlM (addCall r src dst) c
  | _, _ => .error (.fault (.danglingEdge r.src r.dst))

/-- Registers a recorded entrypoint by the edit for entrypoints. -/
def addEntrypoint (c : Guarded) (number : Int) : Except Mishap Guarded :=
  match c.nodes.find? number with
  | some n => do
    let graph ← (c.graph.registerEntrypoint (some n)).mapError .refused
    return { c with graph }
  | none => .error (.fault (.danglingEntrypoint number))

/-- The graph that a document describes, or what goes wrong. -/
def decode (serial : Nat) (doc : Document) : Except Mishap Graph := do
  if doc.schema ≠ currentSchema then throw (.fault (.unsupportedSchema doc.schema))
  let c : Guarded := { graph := Graph.fresh serial }
  let c ← doc.nodes.foldlM addNode c
  let c ← doc.edges.foldlM addEdge c
  let c ← doc.entrypoints.foldlM addEntrypoint c
  return c.graph

end Guarded

/-- Two outcomes are related results, or one and the same fault. -/
inductive Agrees {C D : Type} (R : C → D → Prop) :
    Except Mishap C → Except DocumentError D → Prop
  | ok {c : C} {d : D} : R c d → Agrees R (.ok c) (.ok d)
  | fault {e : DocumentError} : Agrees R (.error (.fault e)) (.error e)

namespace Agrees

variable {A C D C' D' : Type} {R : C → D → Prop} {S : C' → D' → Prop}
  {x : Except Mishap C} {y : Except DocumentError D}

/-- Outcomes agree after a step in which they do. A fault ends both. -/
theorem bind {f : C → Except Mishap C'} {f' : D → Except DocumentError D'} (h : Agrees R x y)
    (hf : ∀ c d, R c d → Agrees S (f c) (f' d)) : Agrees S (x >>= f) (y >>= f') := by
  cases h with
  | ok hcd => exact hf _ _ hcd
  | fault => exact .fault

/-- Folds agree if their steps do. -/
theorem foldlM {f : C → A → Except Mishap C} {f' : D → A → Except DocumentError D}
    (hstep : ∀ a c d, R c d → Agrees R (f c a) (f' d a)) :
    ∀ (l : List A) (c : C) (d : D), R c d → Agrees R (l.foldlM f c) (l.foldlM f' d) := by
  intro l
  induction l with
  | nil => exact fun c d hcd => .ok hcd
  | cons a rest ih =>
      intro c d hcd
      rw [List.foldlM_cons, List.foldlM_cons]
      exact (hstep a c d hcd).bind ih

theorem eq_mapError {y : Except DocumentError C} (h : Agrees Eq x y) : x = y.mapError .fault := by
  cases h with
  | ok hcd => rw [hcd]; rfl
  | fault => rfl

theorem imp {R' : C → D → Prop} (h : Agrees R x y) (hR : ∀ c d, R c d → R' c d) :
    Agrees R' x y := by
  cases h with
  | ok hcd => exact .ok (hR _ _ hcd)
  | fault => exact .fault

end Agrees

/-! ### Nothing else to report -/

/-- What a reader that asks keeps is what a draft keeps, with nodes for their numbers.
    The nodes are still in the graph, so an edit that is given one of them is not
    refused. -/
structure Mirrors (serial : Nat) (c : Guarded) (d : Draft) : Prop where
  grounded : d.Grounded serial
  graph : c.graph = d.graph
  sites : c.sites = d.sites
  number : ∀ i, d.numbers.find? i = (c.nodes.find? i).map (·.id)
  contains : ∀ {i n}, c.nodes.find? i = some n → d.graph.contains n

/-- At the start both have a fresh graph and nothing else. -/
theorem mirrors_fresh (serial : Nat) :
    Mirrors serial { graph := Graph.fresh serial } { graph := Graph.fresh serial } where
  grounded := Draft.grounded_fresh serial
  graph := rfl
  sites := rfl
  number i := by simp
  contains h := absurd h (by simp)

/-- The index of a graph in the making names nodes, and the graph takes new ones. -/
theorem Guarded.nodeFor_eq {serial : Nat} {g : Graph} (hg : g.Assembled serial) (r : NodeRecord) :
    ∃ n, Guarded.nodeFor g r = .ok ((Draft.nodeFor g r).1, n) ∧ n.id = (Draft.nodeFor g r).2 ∧
      (Draft.nodeFor g r).1.contains n := by
  have hwf := hg.wellFormed
  unfold Guarded.nodeFor Guarded.nodeAt
  rcases Draft.nodeFor_cases g r with ⟨hroot, h⟩ | ⟨hroot, hclinit, h⟩ |
    ⟨hroot, hclinit, ⟨n, hn, h⟩ | ⟨hnew, h⟩⟩
  · rw [h, if_pos hroot, hwf.root]
    exact ⟨_, rfl, rfl, Graph.contains_iff.2 hwf.root⟩
  · rw [h, if_neg hroot, if_pos hclinit, hwf.clinit]
    exact ⟨_, rfl, rfl, Graph.contains_iff.2 hwf.clinit⟩
  · -- What the index names has a node, so its slot is not empty.
    rcases hwf.lookup_eq_some_iff.1 hn with ⟨hnode, hunit, hcontext⟩
    have hfind := hwf.index_iff.2 ⟨n, hnode, hunit, hcontext⟩
    rw [h, if_neg hroot, if_neg hclinit]
    simp only [hfind, hnode]
    exact ⟨n, rfl, rfl, Graph.contains_iff.2 hnode⟩
  · have hfind := hwf.find?_index_eq_none hnew
    have hmake : g.findOrCreate (some (.named (Draft.refOf r))) (some (.ofName r.context)) =
        .ok (g.create (.named (Draft.refOf r)) (.ofName r.context) .ordinary) :=
      Graph.findOrCreate_eq_ok_iff.2 ⟨_, _, rfl, rfl, Or.inr ⟨hnew, hg.thawed, rfl⟩⟩
    rw [h, if_neg hroot, if_neg hclinit]
    simp only [hfind, hmake]
    exact ⟨_, rfl, rfl, Graph.contains_create.2 (Or.inr rfl)⟩

namespace Mirrors

variable {serial : Nat} {c : Guarded} {d : Draft}

/-- An addition that is not refused is the same for both, and no node goes. -/
theorem edit (hm : Mirrors serial c d) {x : Except GraphError Graph} {graph : Graph}
    (hx : x = .ok graph) (hgraph : graph.Assembled serial)
    (hkept : ∀ n, d.graph.contains n → graph.contains n) :
    Agrees (fun c' d' => Mirrors serial c' d' ∧ ∀ n, d.graph.contains n → d'.graph.contains n)
      (do let graph ← x.mapError .refused; return { c with graph }) (.ok { d with graph }) := by
  have hlive := Draft.live_of_contains_imp hm.grounded.assembled.wellFormed hkept
  rw [hx]
  exact .ok ⟨⟨hm.grounded.grow hgraph hlive, rfl, hm.sites, hm.number,
    fun h => hkept _ (hm.contains h)⟩, hkept⟩

/-- A site is recorded by both, or has no kind for both. -/
theorem addSite (hm : Mirrors serial c d) {n : Node} (hn : d.graph.contains n) (number : Int)
    (r : SiteRecord) :
    Agrees (fun c' d' => Mirrors serial c' d' ∧ d'.graph.contains n)
      (Guarded.addSite number n c r) (Draft.addSite number n.id d r) := by
  have hgrounded : ∀ {d'}, Draft.addSite number n.id d r = .ok d' → d'.Grounded serial :=
    fun h => (hm.grounded.addSite (Graph.live_of_contains hn) h).1
  unfold Guarded.addSite Draft.addSite
  cases hs : Draft.siteOf r with
  | none => exact .fault
  | some s =>
      have hkeeps := Graph.keeps_recordSite d.graph n.id s
      dsimp only
      rw [hm.graph, Graph.addSite_of_contains hm.grounded.assembled.thawed hn, hm.sites]
      exact .ok ⟨⟨hgrounded (Draft.addSite_eq_ok_iff.2 ⟨s, hs, rfl⟩), rfl, rfl, hm.number,
        fun h => hkeeps.contains_iff.2 (hm.contains h)⟩, hkeeps.contains_iff.2 hn⟩

/-- A node is met by both, with its sites. -/
theorem addNode (hm : Mirrors serial c d) (r : NodeRecord) :
    Agrees (Mirrors serial) (c.addNode r) (d.addNode r) := by
  rcases Guarded.nodeFor_eq hm.grounded.assembled r with ⟨n, hnode, hid, hn⟩
  have hmet : Mirrors serial
      { c with graph := (Draft.nodeFor d.graph r).1, nodes := c.nodes.insert r.id n }
      { d with
        graph := (Draft.nodeFor d.graph r).1
        numbers := d.numbers.insert r.id (Draft.nodeFor d.graph r).2 } := by
    refine ⟨hm.grounded.meetNode r, rfl, hm.sites, fun i => ?_, fun {i m} h => ?_⟩
    · rw [Table.find?_insert, Table.find?_insert]
      split
      · rw [← hid]
        rfl
      · exact hm.number i
    · rw [Table.find?_insert] at h
      split at h
      · rw [← Option.some.inj h]
        exact hn
      · exact (Draft.nodeFor_assembled hm.grounded.assembled r).2.2 m (hm.contains h)
  -- The sites are added one by one, and each leaves the node in the graph.
  have hsites := Agrees.foldlM
    (R := fun c d => Mirrors serial c d ∧ d.graph.contains n)
    (fun s c d h => h.1.addSite h.2 r.id s) r.sites _ _ ⟨hmet, hn⟩
  unfold Guarded.addNode
  rw [hm.graph, hnode]
  rw [hid] at hsites
  exact hsites.imp fun _ _ h => h.1

/-- A position is one for both, or for neither. -/
theorem addCall (hm : Mirrors serial c d) {src dst : Node} (hsrc : d.graph.contains src)
    (hdst : d.graph.contains dst) (r : EdgeRecord) (i : Int) :
    Agrees (fun c' d' => Mirrors serial c' d' ∧ ∀ n, d.graph.contains n → d'.graph.contains n)
      (Guarded.addCall r src dst c i) (Draft.addCall r src.id dst.id d i) := by
  have hknown : (c.sites.find? r.src).getD [] = (d.sites.find? r.src).getD [] := by rw [hm.sites]
  unfold Guarded.addCall Draft.addCall
  dsimp only
  rw [hknown]
  cases hs : if i < 0 then none else ((d.sites.find? r.src).getD [])[i.toNat]? with
  | none => exact .fault
  | some s =>
      -- A position is one of the list only if it is not negative.
      have hmem : s ∈ d.sitesOf r.src := by
        split at hs
        · exact absurd hs (by simp)
        · exact List.mem_of_getElem? hs
      have hkeeps := Graph.keeps_call d.graph src.id s dst.id
      rw [hm.graph]
      exact hm.edit
        (Graph.addCall_of_contains hm.grounded.assembled.thawed hsrc hdst s)
        (hm.grounded.assembled.call (Graph.live_of_contains hsrc) (Graph.live_of_contains hdst)
          (hm.grounded.named hmem))
        fun n => hkeeps.contains_iff.2

/-- An edge is added by both, or has an end that is there for neither. -/
theorem addEdge (hm : Mirrors serial c d) (r : EdgeRecord) :
    Agrees (Mirrors serial) (c.addEdge r) (d.addEdge r) := by
  unfold Guarded.addEdge Draft.addEdge
  rw [hm.number r.src, hm.number r.dst]
  cases hsrc : c.nodes.find? r.src with
  | none => exact .fault
  | some src =>
      cases hdst : c.nodes.find? r.dst with
      | none => exact .fault
      | some dst =>
          have hboth := And.intro (hm.contains hsrc) (hm.contains hdst)
          simp only [Option.map_some]
          split
          · have hkeeps := Graph.keeps_link d.graph src.id dst.id
            rw [hm.graph]
            refine (hm.edit (Graph.addEdge_of_contains hm.grounded.assembled.thawed hboth.1 hboth.2)
              (hm.grounded.assembled.link (Graph.live_of_contains hboth.1)
                (Graph.live_of_contains hboth.2)) fun n => hkeeps.contains_iff.2).imp ?_
            exact fun _ _ h => h.1
          · -- Both ends are there for each call, since none of them removes a node.
            refine (Agrees.foldlM
              (R := fun c d => Mirrors serial c d ∧ d.graph.contains src ∧ d.graph.contains dst)
              (fun i c d h => ?_) r.sites c d ⟨hm, hboth⟩).imp fun _ _ h => h.1
            exact (h.1.addCall h.2.1 h.2.2 r i).imp
              fun _ _ h' => ⟨h'.1, h'.2 _ h.2.1, h'.2 _ h.2.2⟩

/-- An entrypoint is registered by both, or is there for neither. -/
theorem addEntrypoint (hm : Mirrors serial c d) (number : Int) :
    Agrees (Mirrors serial) (c.addEntrypoint number) (d.addEntrypoint number) := by
  unfold Guarded.addEntrypoint Draft.addEntrypoint
  rw [hm.number number]
  cases hn : c.nodes.find? number with
  | none => exact .fault
  | some n =>
      have hcontains := hm.contains hn
      dsimp only [Option.map_some]
      rw [hm.graph]
      refine (hm.edit (Graph.registerEntrypoint_of_contains hcontains)
        (hm.grounded.assembled.markEntrypoint (Graph.live_of_contains hcontains))
        fun m hm' => ?_).imp fun _ _ h => h.1
      rw [Graph.contains_markEntrypoint]
      exact hm'

end Mirrors

/-- A reader that asks has nothing to report but the faults of the document. The two
    readers are compared record by record. Each edit is accepted because its nodes are
    there and the graph is not frozen. -/
theorem Guarded.decode_eq (serial : Nat) (doc : Document) :
    Guarded.decode serial doc = (Document.decode serial doc).mapError .fault := by
  have hnodes := Agrees.foldlM (fun r c d h => Mirrors.addNode h r) doc.nodes _ _
    (mirrors_fresh serial)
  have hedges := Agrees.foldlM (fun r c d (h : Mirrors serial c d) => h.addEdge r) doc.edges
  have hentries := Agrees.foldlM (fun i c d (h : Mirrors serial c d) => h.addEntrypoint i)
    doc.entrypoints
  unfold Guarded.decode Document.decode
  by_cases hschema : doc.schema = currentSchema
  · simp only [hschema, ne_eq, not_true_eq_false, if_false]
    refine Agrees.eq_mapError ?_
    refine hnodes.bind fun c d h => (hedges c d h).bind fun c d h => (hentries c d h).bind ?_
    exact fun c d h => .ok h.graph
  · -- The schema is checked first by both, so neither looks at the records.
    rw [if_pos hschema, if_pos hschema]
    rfl

/-- A document is accepted exactly if it is consistent. A reader that asks before every edit
    and at every slot reports the same faults and no others, and what is made of an accepted
    document is a well-formed graph that takes edits. -/
theorem decode_accepts_consistent (serial : Nat) (doc : Document) :
    ((∃ g, decode serial doc = .ok g) ↔ doc.Consistent) ∧
      Guarded.decode serial doc = (decode serial doc).mapError .fault ∧
      ∀ g, decode serial doc = .ok g → g.frozen = false ∧ g.WellFormed := by
  refine ⟨exists_decode_iff, Guarded.decode_eq serial doc, fun g h => ?_⟩
  have hg := assembled_of_decode h
  exact ⟨hg.thawed, hg.wellFormed⟩

end Document

end CallAtlas
