import CallAtlas.Proofs.Growth
import CallAtlas.Proofs.Snapshot.Renumbering

/-!
# Rebuilding from a Document

Rebuilding reads the records of a document one by one. After some of them the draft
holds what these say and nothing else, which is the invariant here. It has a part for
each kind of record: the nodes that were made and the numbers they were given, the
sites that were recorded, the edges with their sites, and the entrypoints.

A record of a node makes the node and then records its sites, so the nodes that are
there may be one ahead of those that have their sites. The draft keeps the sites of a
node under its old number as well, and edges name sites by their position in that list.
That the list is the one the graph had makes these positions lead back to the sites.

## Main definitions

* `Document.Draft.sitesOf`: The sites known for a recorded number.
* `CallGraph.Made`, `CallGraph.Recorded`, `CallGraph.Linked`: The nodes, the sites and the
  edges of a draft.
* `CallGraph.Replayed`: A draft holds what some records say.

## Theorems

* `Document.Draft.addSites_eq`, `Document.Draft.addCalls_eq`: What the records of sites
  and of positions do to a draft.
* `CallGraph.Replayed.addNode`, `CallGraph.Replayed.addEdge`,
  `CallGraph.Replayed.addEntrypoint`: One more record is read.
* `CallGraph.replayed_encode`: All records of a document are read.
-/

namespace CallAtlas

/-! ## Sites and positions -/

theorem Dispatch.ofName?_text {k : Dispatch} (h : k ∈ named) : ofName? k.text = some k := by
  revert k
  decide

/-- The position of a member leads back to it. -/
theorem getElem?_idxOf?_getD {l : List CallSite} {s : CallSite} (h : s ∈ l) :
    l[(l.idxOf? s).getD 0]? = some s := by
  rcases Option.isSome_iff_exists.1 (List.isSome_idxOf?.2 h) with ⟨i, hi⟩
  rw [hi, Option.getD_some]
  rcases List.idxOf?_eq_some_iff.1 hi with ⟨hlt, hs, _⟩
  rw [List.getElem?_eq_getElem hlt, hs]

namespace Document.Draft

/-- The sites known for a recorded number. -/
def sitesOf (d : Draft) (number : Int) : List CallSite := (d.sites.find? number).getD []

theorem siteOf_siteRecord {s : CallSite} (h : s.kind ∈ Dispatch.named) :
    siteOf (siteRecord s) = some s := by
  rw [siteOf, siteRecord, Dispatch.ofName?_text h]
  rfl

/-- Recorded sites are recorded again, and kept in order under the recorded number. The
    graph leaves out a site that it has, but the list under the number does not, since
    positions count it. -/
theorem addSites_eq (number id : Int) :
    ∀ (sites : List CallSite) (d : Draft), (∀ s ∈ sites, s.kind ∈ Dispatch.named) →
      ∃ d', (sites.map siteRecord).foldlM (addSite number id) d = .ok d' ∧
        d'.graph = d.graph.recordSites id sites ∧ d'.numbers = d.numbers ∧
        ∀ i, d'.sitesOf i = if i = number then d.sitesOf i ++ sites else d.sitesOf i := by
  intro sites
  induction sites with
  | nil => exact fun d _ => ⟨d, rfl, rfl, rfl, fun i => by simp⟩
  | cons s rest ih =>
      intro d hnamed
      let d₁ : Draft := { d with
        graph := d.graph.recordSite id s
        sites := d.sites.insert number (d.sitesOf number ++ [s]) }
      have hone : addSite number id d (siteRecord s) = .ok d₁ := by
        rw [addSite, siteOf_siteRecord (hnamed s List.mem_cons_self)]
        rfl
      rcases ih d₁ (fun t ht => hnamed t (List.mem_cons_of_mem s ht)) with
        ⟨d', hrest, hgraph, hnumbers, hsites⟩
      refine ⟨d', ?_, hgraph, hnumbers, fun i => ?_⟩
      · rw [List.map_cons, List.foldlM_cons, hone]
        exact hrest
      · rw [hsites]
        -- The list under the number grows by this site first and then by the others.
        by_cases hi : i = number
        · rw [if_pos hi, if_pos hi, hi]
          simp [sitesOf, d₁, Table.find?_insert]
        · rw [if_neg hi, if_neg hi]
          simp [sitesOf, d₁, Table.find?_insert, Ne.symm hi]

/-- Positions among the sites of the caller become calls from these sites. The list of
    known sites does not change on the way, so a position means the same throughout. -/
theorem addCalls_eq (r : EdgeRecord) (src dst : Int) (known : List CallSite) :
    ∀ (sites : List CallSite) (d : Draft), d.sitesOf r.src = known → (∀ s ∈ sites, s ∈ known) →
      (sites.map fun s => (((known.idxOf? s).getD 0 : Nat) : Int)).foldlM (addCall r src dst) d =
        .ok { d with graph := d.graph.callFrom src dst sites } := by
  intro sites
  induction sites with
  | nil => exact fun d _ _ => rfl
  | cons s rest ih =>
      intro d hknown hmem
      -- The position leads to the site because it was taken in the same list.
      have hone : addCall r src dst d ((known.idxOf? s).getD 0 : Nat) =
          .ok { d with graph := (d.graph.addTarget src s dst).link src dst } := by
        have hnonneg : ¬ (((known.idxOf? s).getD 0 : Nat) : Int) < 0 := by omega
        have hsites : (d.sites.find? r.src).getD [] = known := hknown
        simp only [addCall, hsites, if_neg hnonneg, Int.toNat_natCast,
          getElem?_idxOf?_getD (hmem s List.mem_cons_self)]
      rw [List.map_cons, List.foldlM_cons, hone]
      exact ih _ hknown fun t ht => hmem t (List.mem_cons_of_mem s ht)

end Document.Draft

/-! ## What a draft holds -/

namespace CallGraph

open Document (Draft nodeRecord edgeRecord)

variable {G : Type} [CallGraph G] {serial : Nat} {g : G} {d : Draft}

/-- The nodes of a draft are the roots and what the nodes of a list come back as. -/
structure Made (serial : Nat) (g : G) (made : List Node) (d : Draft) : Prop where
  obtainable : d.graph.Obtainable
  thawed : d.graph.frozen = false
  serial_eq : d.graph.serial = serial
  size_eq : d.graph.slots.size = (made.filter fun n => n.kind = .ordinary).length + 2
  contains_iff : ∀ {m}, d.graph.contains m ↔
    m = rootNode serial ∨ m = clinitNode serial ∨ ∃ n ∈ made, m = renumbered serial g n
  number : ∀ {n}, n ∈ made → d.numbers.find? n.id = some (renumbered serial g n).id

/-- The sites of a draft are those of the nodes of a list, under their numbers here and there. -/
structure Recorded (serial : Nat) (g : G) (recorded : List Node) (d : Draft) : Prop where
  sitesOf_eq : ∀ {n}, n ∈ recorded → d.sitesOf n.id = callSites g n
  sitesOf_else : ∀ {i}, (∀ n ∈ recorded, n.id ≠ i) → d.sitesOf i = []
  sitesAt_eq : ∀ {n}, n ∈ recorded → d.graph.sitesAt (renumbered serial g n).id = callSites g n
  sitesAt_else : ∀ {i}, (∀ n ∈ recorded, (renumbered serial g n).id ≠ i) → d.graph.sitesAt i = []

/-- The edges of a draft are those of a list, each with its sites. -/
structure Linked (serial : Nat) (g : G) (linked : List (Node × Node)) (d : Draft) : Prop where
  calls_iff : ∀ {i j}, d.graph.Calls i j ↔
    ∃ e ∈ linked, i = (renumbered serial g e.1).id ∧ j = (renumbered serial g e.2).id
  attributes_iff : ∀ {i s j}, d.graph.Attributes i s j ↔
    ∃ e ∈ linked, s ∈ sitesBetween g e.1 e.2 ∧
      i = (renumbered serial g e.1).id ∧ j = (renumbered serial g e.2).id

/-- A draft holds nodes, sites, edges and entrypoints, and nothing else. -/
structure Replayed (serial : Nat) (g : G) (made recorded : List Node)
    (linked : List (Node × Node)) (entered : List Node) (d : Draft) : Prop extends
    Made serial g made d, Recorded serial g recorded d, Linked serial g linked d where
  entrypoints_eq : d.graph.entrypoints = entered.map fun n => (renumbered serial g n).id

/-- A draft starts with the roots alone. -/
theorem replayed_fresh (serial : Nat) (g : G) :
    Replayed serial g [] [] [] [] { graph := Graph.fresh serial } where
  obtainable := Graph.obtainable_fresh serial
  thawed := rfl
  serial_eq := rfl
  size_eq := rfl
  contains_iff := by
    intro m
    rw [Graph.contains_fresh]
    simp [rootNode, clinitNode]
  number hn := absurd hn List.not_mem_nil
  sitesOf_eq hn := absurd hn List.not_mem_nil
  sitesOf_else _ := rfl
  sitesAt_eq hn := absurd hn List.not_mem_nil
  sitesAt_else _ := Graph.sitesAt_fresh serial _
  calls_iff := by simp [Graph.not_calls_fresh]
  attributes_iff := by simp [Graph.not_attributes_fresh]
  entrypoints_eq := rfl

theorem Made.wellFormed {made : List Node} (hd : Made serial g made d) : d.graph.WellFormed :=
  hd.obtainable.wellFormed

theorem Made.contains {made : List Node} (hd : Made serial g made d) {n : Node} (hn : n ∈ made) :
    d.graph.contains (renumbered serial g n) :=
  hd.contains_iff.2 (Or.inr (Or.inr ⟨n, hn, rfl⟩))

theorem Made.live {made : List Node} (hd : Made serial g made d) {n : Node} (hn : n ∈ made) :
    d.graph.Live (renumbered serial g n).id :=
  Graph.live_of_contains (hd.contains hn)

/-- Edits of edges and sites keep what is said of nodes. -/
theorem Made.congr {made : List Node} (hd : Made serial g made d) {d' : Draft}
    (hobtainable : d'.graph.Obtainable) (hkeeps : d.graph.Keeps d'.graph)
    (hnumbers : d'.numbers = d.numbers) : Made serial g made d' where
  obtainable := hobtainable
  thawed := hkeeps.frozen.trans hd.thawed
  serial_eq := hkeeps.serial.trans hd.serial_eq
  size_eq := hkeeps.size.trans hd.size_eq
  contains_iff := hkeeps.contains_iff.trans hd.contains_iff
  number hn := by
    rw [hnumbers]
    exact hd.number hn

/-! ## A node -/

section Node

variable {before after : List Node} {linked : List (Node × Node)} {entered : List Node} {n : Node}

/-- The nodes read so far and the one read now are nodes of the graph. -/
theorem mem_nodes_of_mem_concat (hsplit : nodes g = before ++ n :: after) {m : Node}
    (hm : m ∈ before ++ [n]) : m ∈ nodes g := by
  rw [hsplit]
  rcases List.mem_append.1 hm with hm | hm
  · exact List.mem_append_left _ hm
  · rw [List.mem_singleton.1 hm]
    exact List.mem_append_right before List.mem_cons_self

/-- Every number met so far stands for what its node comes back as. -/
theorem Made.find?_insert (hg : Lawful g) (hsplit : nodes g = before ++ n :: after)
    (hd : Made serial g before d) {m : Node} (hm : m ∈ before ++ [n]) :
    (d.numbers.insert n.id (renumbered serial g n).id).find? m.id =
      some (renumbered serial g m).id := by
  rw [Table.find?_insert]
  rcases List.mem_append.1 hm with hm | hm
  · have hlt := hg.lt_of_nodes_eq hsplit hm
    rw [if_neg (by omega)]
    exact hd.number hm
  · rw [List.mem_singleton.1 hm, if_pos rfl]

/-- The unit and context that an ordinary node comes back with are not taken. The roots
    have others, since no ordinary node passes for one, and so have the nodes before it,
    since no two agree. -/
theorem Made.lookup_eq_none (hg : Lawful g) (hs : Storable g)
    (hsplit : nodes g = before ++ n :: after) (hk : n.kind = .ordinary)
    (hd : Made serial g before d) :
    d.graph.lookup (.named n.unit.ref) (.ofName n.context.text) = none := by
  have hin : ∀ {m}, m ∈ before ++ [n] → m ∈ nodes g := mem_nodes_of_mem_concat hsplit
  have hn : n ∈ nodes g := hin (List.mem_append_right before (List.mem_singleton_self n))
  rw [Option.eq_none_iff_forall_ne_some]
  intro m hm
  rcases hd.wellFormed.lookup_eq_some_iff.1 hm with ⟨hm, hunit, hcontext⟩
  have href : m.unit.ref = n.unit.ref := by
    rw [hunit]
    rfl
  have htext : m.context.text = n.context.text := by
    rw [hcontext, Context.text_ofName]
  -- A node with the pair would be a root, or come from a node before this one.
  rcases hd.contains_iff.1 (Graph.contains_iff.2 hm) with rfl | rfl | ⟨k, hk', rfl⟩
  · exact (hs.not_synthetic hn hk htext.symm).1 href.symm
  · exact (hs.not_synthetic hn hk htext.symm).2 href.symm
  · have hkin : k ∈ nodes g := hin (List.mem_append_left _ hk')
    rw [hg.renumbered_ref serial hkin] at href
    rw [hg.renumbered_context serial hkin] at htext
    have hlt := hg.lt_of_nodes_eq hsplit hk'
    rw [hs.distinct hkin hn href htext] at hlt
    omega

/-- A root is there already. It only gets its recorded number. -/
theorem Replayed.meetRoot (hg : Lawful g) (hsplit : nodes g = before ++ n :: after)
    (hk : n.kind ≠ .ordinary)
    (hroot : renumbered serial g n = rootNode serial ∨ renumbered serial g n = clinitNode serial)
    (hd : Replayed serial g before before linked entered d) :
    Replayed serial g (before ++ [n]) before linked entered
      { d with numbers := d.numbers.insert n.id (renumbered serial g n).id } :=
  { hd with
    size_eq := by
      rw [List.filter_append, List.filter_cons_of_neg (by simp [hk]), List.filter_nil,
        List.append_nil]
      exact hd.size_eq
    contains_iff := by
      intro m
      refine hd.contains_iff.trans ⟨?_, ?_⟩
      · rintro (hm | hm | ⟨k, hk, hm⟩)
        · exact Or.inl hm
        · exact Or.inr (Or.inl hm)
        · exact Or.inr (Or.inr ⟨k, List.mem_append_left _ hk, hm⟩)
      · rintro (hm | hm | ⟨k, hk, hm⟩)
        · exact Or.inl hm
        · exact Or.inr (Or.inl hm)
        · -- The root that is met now is not new, as it was in the graph from the start.
          rcases List.mem_append.1 hk with hk | hk
          · exact Or.inr (Or.inr ⟨k, hk, hm⟩)
          · rw [List.mem_singleton.1 hk] at hm
            rcases hroot with hroot | hroot
            · exact Or.inl (hm.trans hroot)
            · exact Or.inr (Or.inl (hm.trans hroot))
    number := hd.find?_insert hg hsplit }

/-- The node that is made is what the node comes back as: the next number counts the
    ordinary nodes before it. -/
theorem Made.create_eq (hg : Lawful g) (hsplit : nodes g = before ++ n :: after)
    (hk : n.kind = .ordinary) (hd : Made serial g before d) :
    (d.graph.create (.named n.unit.ref) (.ofName n.context.text) .ordinary).2 =
      renumbered serial g n := by
  rw [renumbered_of_ordinary hk, hg.idxOf_ordinary hsplit hk]
  simp only [Graph.create, hd.serial_eq, hd.size_eq, Int.natCast_add, Int.cast_ofNat_Int]

/-- An ordinary node is made with the next number. It has no sites and no edges yet. -/
theorem Replayed.makeNode (hg : Lawful g) (hs : Storable g)
    (hsplit : nodes g = before ++ n :: after) (hk : n.kind = .ordinary)
    (hd : Replayed serial g before before linked entered d) :
    Replayed serial g (before ++ [n]) before linked entered
      { d with
        graph := (d.graph.create (.named n.unit.ref) (.ofName n.context.text) .ordinary).1
        numbers := d.numbers.insert n.id (renumbered serial g n).id } where
  obtainable := hd.obtainable.create hd.thawed (hd.lookup_eq_none hg hs hsplit hk)
  thawed := hd.thawed
  serial_eq := hd.serial_eq
  size_eq := by
    rw [List.filter_append, List.filter_cons_of_pos (by simp [hk]), List.length_append]
    simp [Graph.create, hd.size_eq]
  contains_iff := by
    intro m
    rw [Graph.contains_create, hd.contains_iff, hd.create_eq hg hsplit hk]
    simp only [List.mem_append, List.mem_singleton, or_assoc, or_and_right, exists_or,
      exists_eq_left]
  number := hd.find?_insert hg hsplit
  sitesOf_eq hm := hd.sitesOf_eq hm
  sitesOf_else hi := hd.sitesOf_else hi
  sitesAt_eq hm := (Graph.sitesAt_create ..).trans (hd.sitesAt_eq hm)
  sitesAt_else hi := (Graph.sitesAt_create ..).trans (hd.sitesAt_else hi)
  calls_iff := Graph.calls_create.trans hd.calls_iff
  attributes_iff := Graph.attributes_create.trans hd.attributes_iff
  entrypoints_eq := hd.entrypoints_eq

/-- The record of a node stands for what the node comes back as. -/
theorem Replayed.nodeFor (hg : Lawful g) (hs : Storable g) (hsplit : nodes g = before ++ n :: after)
    (hd : Replayed serial g before before linked entered d) :
    ∃ graph, Draft.nodeFor d.graph (nodeRecord g n) = (graph, (renumbered serial g n).id) ∧
      Replayed serial g (before ++ [n]) before linked entered
        { d with graph, numbers := d.numbers.insert n.id (renumbered serial g n).id } := by
  cases hk : n.kind with
  | fakeRoot =>
      refine ⟨d.graph, ?_, hd.meetRoot hg hsplit (by simp [hk])
        (Or.inl (renumbered_of_fakeRoot hk))⟩
      rw [renumbered_of_fakeRoot hk, Draft.nodeFor, if_pos (by rw [nodeRecord, hk])]
      rfl
  | fakeWorldClinit =>
      refine ⟨d.graph, ?_, hd.meetRoot hg hsplit (by simp [hk])
        (Or.inr (renumbered_of_fakeWorldClinit hk))⟩
      rw [renumbered_of_fakeWorldClinit hk, Draft.nodeFor, nodeRecord, hk,
        if_neg (by simp [NodeKind.text]), if_pos rfl]
      rfl
  | ordinary =>
      refine ⟨_, ?_, hd.makeNode hg hs hsplit hk⟩
      rw [← hd.create_eq hg hsplit hk, Draft.nodeFor, nodeRecord, hk,
        if_neg (by simp [NodeKind.text]), if_neg (by simp [NodeKind.text])]
      simp only [hd.lookup_eq_none hg hs hsplit hk]

/-- Recording the sites of one more node. It stands last, so no site was kept under its
    old number or recorded at its new one. -/
theorem Recorded.concat (hg : Lawful g) (hsplit : nodes g = before ++ n :: after)
    (hwf : d.graph.WellFormed) (hlive : d.graph.Live (renumbered serial g n).id)
    (hd : Recorded serial g before d) {d' : Draft}
    (hgraph : d'.graph = d.graph.recordSites (renumbered serial g n).id (callSites g n))
    (hsites : ∀ i, d'.sitesOf i =
      if i = n.id then d.sitesOf i ++ callSites g n else d.sitesOf i) :
    Recorded serial g (before ++ [n]) d' := by
  have hlast : n ∈ before ++ [n] := List.mem_append_right before (List.mem_singleton_self n)
  have hin : ∀ {m}, m ∈ before ++ [n] → m ∈ nodes g := mem_nodes_of_mem_concat hsplit
  have hlt : ∀ {m}, m ∈ before → m.id < n.id := hg.lt_of_nodes_eq hsplit
  have hlt' : ∀ {m}, m ∈ before → (renumbered serial g m).id < (renumbered serial g n).id :=
    fun hm => hg.renumbered_lt serial (hin (List.mem_append_left _ hm)) (hin hlast) (hlt hm)
  refine ⟨?_, ?_, ?_, ?_⟩
  · intro m hm
    rw [hsites]
    rcases List.mem_append.1 hm with hm | hm
    · rw [if_neg (Int.ne_of_lt (hlt hm))]
      exact hd.sitesOf_eq hm
    · rw [List.mem_singleton.1 hm, if_pos rfl,
        hd.sitesOf_else fun k hk => Int.ne_of_lt (hlt hk), List.nil_append]
  · intro i hi
    rw [hsites, if_neg (Ne.symm (hi n hlast))]
    exact hd.sitesOf_else fun k hk => hi k (List.mem_append_left _ hk)
  · intro m hm
    rw [hgraph]
    rcases List.mem_append.1 hm with hm | hm
    · rw [Graph.sitesAt_recordSites_of_ne (Int.ne_of_lt (hlt' hm)) _ hwf hlive]
      exact hd.sitesAt_eq hm
    · -- The graph hands out new numbers, so nothing was recorded here before.
      have hnone : d.graph.sitesAt (renumbered serial g n).id = [] :=
        hd.sitesAt_else fun k hk => Int.ne_of_lt (hlt' hk)
      rw [List.mem_singleton.1 hm, Graph.sitesAt_recordSites _ [] hwf hlive hnone,
        List.nil_append, eraseDups_of_nodup (hg.callSites_nodup n)]
  · intro i hi
    rw [hgraph, Graph.sitesAt_recordSites_of_ne (Ne.symm (hi n hlast)) _ hwf hlive]
    exact hd.sitesAt_else fun k hk => hi k (List.mem_append_left _ hk)

/-- The sites of a node are recorded as they were. -/
theorem Replayed.recordSites (hg : Lawful g) (hs : Storable g)
    (hsplit : nodes g = before ++ n :: after)
    (hd : Replayed serial g (before ++ [n]) before linked entered d) :
    ∃ d', ((callSites g n).map Document.siteRecord).foldlM
        (Draft.addSite n.id (renumbered serial g n).id) d = .ok d' ∧
      Replayed serial g (before ++ [n]) (before ++ [n]) linked entered d' := by
  have hlast : n ∈ before ++ [n] := List.mem_append_right before (List.mem_singleton_self n)
  rcases Draft.addSites_eq n.id (renumbered serial g n).id (callSites g n) d
    (hs.named (mem_nodes_of_mem_concat hsplit hlast)) with ⟨d', hok, hgraph, hnumbers, hsites⟩
  have hlive := hd.live hlast
  have hkeeps : d.graph.Keeps d'.graph := by
    rw [hgraph]
    exact Graph.keeps_recordSites _ _ _
  have hobtainable : d'.graph.Obtainable := by
    rw [hgraph]
    exact hd.obtainable.recordSites _ hd.thawed hlive
  have hlinked : Linked serial g linked d' := by
    refine ⟨?_, ?_⟩
    · rw [hgraph]
      exact Graph.calls_recordSites.trans hd.calls_iff
    · rw [hgraph]
      exact Graph.attributes_recordSites.trans hd.attributes_iff
  exact ⟨d', hok, hd.toMade.congr hobtainable hkeeps hnumbers,
    hd.toRecorded.concat hg hsplit hd.wellFormed hlive hgraph hsites, hlinked,
    hkeeps.entrypoints.trans hd.entrypoints_eq⟩

/-- One more node is read: it is met or made, and then its sites are recorded. -/
theorem Replayed.addNode (hg : Lawful g) (hs : Storable g) (hsplit : nodes g = before ++ n :: after)
    (hd : Replayed serial g before before linked entered d) :
    ∃ d', d.addNode (nodeRecord g n) = .ok d' ∧
      Replayed serial g (before ++ [n]) (before ++ [n]) linked entered d' := by
  rcases hd.nodeFor hg hs hsplit with ⟨graph, hnode, hmade⟩
  rcases hmade.recordSites hg hs hsplit with ⟨d', hok, hall⟩
  refine ⟨d', ?_, hall⟩
  rw [Draft.addNode, hnode]
  exact hok

end Node

/-! ## An edge -/

section Edge

variable {linked : List (Node × Node)} {entered : List Node} {e : Node × Node}

/-- A graph with one more edge and its sites holds what one more record says. Edges with
    sites and without are added by different edits, and both have this effect. -/
theorem Replayed.concatEdge (hd : Replayed serial g (nodes g) (nodes g) linked entered d)
    {graph : Graph} (hobtainable : graph.Obtainable) (hkeeps : d.graph.Keeps graph)
    (hsites : ∀ i, graph.sitesAt i = d.graph.sitesAt i)
    (hcalls : ∀ {i j}, graph.Calls i j ↔ d.graph.Calls i j ∨
      (i = (renumbered serial g e.1).id ∧ j = (renumbered serial g e.2).id))
    (hattributes : ∀ {i s j}, graph.Attributes i s j ↔ d.graph.Attributes i s j ∨
      (i = (renumbered serial g e.1).id ∧ s ∈ sitesBetween g e.1 e.2 ∧
        j = (renumbered serial g e.2).id)) :
    Replayed serial g (nodes g) (nodes g) (linked ++ [e]) entered { d with graph } where
  toMade := hd.toMade.congr hobtainable hkeeps rfl
  sitesOf_eq hn := hd.sitesOf_eq hn
  sitesOf_else hi := hd.sitesOf_else hi
  sitesAt_eq hn := (hsites _).trans (hd.sitesAt_eq hn)
  sitesAt_else hi := (hsites _).trans (hd.sitesAt_else hi)
  calls_iff := by
    intro i j
    rw [hcalls, hd.calls_iff]
    simp only [List.mem_append, List.mem_singleton, or_and_right, exists_or, exists_eq_left]
  attributes_iff := by
    intro i s j
    rw [hattributes, hd.attributes_iff]
    simp only [List.mem_append, List.mem_singleton, or_and_right, exists_or, exists_eq_left,
      and_left_comm]
  entrypoints_eq := hkeeps.entrypoints.trans hd.entrypoints_eq

/-- One more edge is read. Its record has the positions of its sites among those of the
    caller, and the sites of the caller were recorded as they were, so each position leads
    back to its site. An edge without sites is linked, and one with sites is made by calls
    from them. -/
theorem Replayed.addEdge (hg : Lawful g) (he : e ∈ edges g)
    (hd : Replayed serial g (nodes g) (nodes g) linked entered d) :
    ∃ d', d.addEdge (edgeRecord g e) = .ok d' ∧
      Replayed serial g (nodes g) (nodes g) (linked ++ [e]) entered d' := by
  rcases hg.mem_edges.1 he with ⟨hsrc, hdst, _⟩
  let src := (renumbered serial g e.1).id
  let dst := (renumbered serial g e.2).id
  have hlsrc : d.graph.Live src := hd.live hsrc
  have hldst : d.graph.Live dst := hd.live hdst
  have hmem : ∀ s ∈ sitesBetween g e.1 e.2, s ∈ callSites g e.1 := by
    intro s hs
    rw [hg.sitesBetween_eq] at hs
    exact List.mem_of_mem_filter hs
  have hadd : d.addEdge (edgeRecord g e) =
      if (edgeRecord g e).sites.isEmpty then .ok { d with graph := d.graph.link src dst }
      else (edgeRecord g e).sites.foldlM (Draft.addCall (edgeRecord g e) src dst) d := by
    have hfirst : d.numbers.find? (edgeRecord g e).src = some src := hd.number hsrc
    have hsecond : d.numbers.find? (edgeRecord g e).dst = some dst := hd.number hdst
    rw [Draft.addEdge, hfirst, hsecond]
  rw [hadd]
  by_cases hempty : sitesBetween g e.1 e.2 = []
  · -- An edge without sites comes back without sites.
    refine ⟨{ d with graph := d.graph.link src dst }, if_pos (by simp [edgeRecord, hempty]), ?_⟩
    refine hd.concatEdge (hd.obtainable.link hd.thawed hlsrc hldst) (Graph.keeps_link _ _ _)
      (fun i => Graph.sitesAt_link hlsrc dst i) (Graph.calls_link hlsrc) ?_
    intro i s j
    rw [Graph.attributes_link hlsrc, hempty]
    simp
  · let sites := sitesBetween g e.1 e.2
    refine ⟨{ d with graph := d.graph.callFrom src dst sites }, ?_, ?_⟩
    · rw [if_neg (by simp [edgeRecord, hempty])]
      exact Draft.addCalls_eq _ src dst (callSites g e.1) sites d (hd.sitesOf_eq hsrc) hmem
    · refine hd.concatEdge (hd.obtainable.callFrom sites hd.thawed hlsrc hldst)
        (Graph.keeps_callFrom _ _ _ _) ?_ ?_ (Graph.attributes_callFrom hlsrc)
      · intro i
        refine Graph.sitesAt_callFrom i sites hd.wellFormed hlsrc hldst fun s hs => ?_
        rw [hd.sitesAt_eq hsrc]
        exact hmem s hs
      · intro i j
        rw [Graph.calls_callFrom hlsrc]
        simp only [sites, ne_eq, hempty, not_false_eq_true, true_and, src, dst]

end Edge

/-! ## An entrypoint -/

/-- One more entrypoint is read. It is new to the graph, so it is put last: entrypoints are
    listed once, and no two nodes come back with one number. Nodes, sites and edges are
    what they were. -/
theorem Replayed.addEntrypoint (hg : Lawful g) {before after : List Node} {n : Node}
    (hsplit : entrypoints g = before ++ n :: after)
    (hd : Replayed serial g (nodes g) (nodes g) (edges g) before d) :
    ∃ d', d.addEntrypoint n.id = .ok d' ∧
      Replayed serial g (nodes g) (nodes g) (edges g) (before ++ [n]) d' := by
  have hentry : ∀ {m}, m ∈ before ++ n :: after → m ∈ nodes g := by
    intro m hm
    rw [← hsplit] at hm
    exact hg.mem_of_mem_entrypoints hm
  have hn : n ∈ nodes g := hentry (List.mem_append_right before List.mem_cons_self)
  -- Entrypoints are listed once, and no two nodes come back with one number.
  have hnew : (renumbered serial g n).id ∉ d.graph.entrypoints := by
    rw [hd.entrypoints_eq, List.mem_map]
    rintro ⟨m, hm, hid⟩
    have hnodup := hg.entrypoints_nodup
    rw [hsplit, List.nodup_append] at hnodup
    exact hnodup.2.2 m hm n List.mem_cons_self
      (hg.renumbered_inj (hentry (List.mem_append_left _ hm)) hn hid)
  refine ⟨{ d with graph := d.graph.markEntrypoint (renumbered serial g n).id }, ?_, ?_⟩
  · rw [Draft.addEntrypoint, hd.number hn]
  · exact {
      obtainable := hd.obtainable.markEntrypoint (hd.live hn)
      thawed := (Graph.frozen_markEntrypoint _ _).trans hd.thawed
      serial_eq := (Graph.serial_markEntrypoint _ _).trans hd.serial_eq
      size_eq := by
        rw [Graph.slots_markEntrypoint]
        exact hd.size_eq
      contains_iff := by
        intro m
        rw [Graph.contains_markEntrypoint]
        exact hd.contains_iff
      number := hd.number
      sitesOf_eq := hd.sitesOf_eq
      sitesOf_else := hd.sitesOf_else
      sitesAt_eq := fun hm => (Graph.sitesAt_markEntrypoint _ _ _).trans (hd.sitesAt_eq hm)
      sitesAt_else := fun hi => (Graph.sitesAt_markEntrypoint _ _ _).trans (hd.sitesAt_else hi)
      calls_iff := Graph.calls_markEntrypoint.trans hd.calls_iff
      attributes_iff := Graph.attributes_markEntrypoint.trans hd.attributes_iff
      entrypoints_eq := by
        rw [Graph.entrypoints_markEntrypoint hd.wellFormed.toEntered hnew, hd.entrypoints_eq,
          List.map_append, List.map_singleton] }

/-! ## All records -/

/-- All records of a document are read, and the draft then holds what they say. Nothing
    is refused on the way, so this is also what shows that reading succeeds. -/
theorem replayed_encode (hg : Lawful g) (hs : Storable g) (serial : Nat) :
    ∃ d, Document.decode serial (Document.encode g) = .ok d.graph ∧
      Replayed serial g (nodes g) (nodes g) (edges g) (entrypoints g) d := by
  rcases foldlM_ok (f := Draft.addNode) (r := nodeRecord g)
    (P := fun done d => Replayed serial g done done [] [] d)
    (fun hsplit hd => hd.addNode hg hs hsplit) (replayed_fresh serial g) with ⟨d₁, hnodes, hd₁⟩
  have hedge : ∀ {done e rest}, edges g = done ++ e :: rest → e ∈ edges g := by
    intro done e rest hsplit
    rw [hsplit]
    exact List.mem_append_right done List.mem_cons_self
  rcases foldlM_ok (f := Draft.addEdge) (r := edgeRecord g)
    (P := fun done d => Replayed serial g (nodes g) (nodes g) done [] d)
    (fun hsplit hd => hd.addEdge hg (hedge hsplit)) hd₁ with ⟨d₂, hedges, hd₂⟩
  rcases foldlM_ok (f := Draft.addEntrypoint) (r := fun n : Node => n.id)
    (P := fun done d => Replayed serial g (nodes g) (nodes g) (edges g) done d)
    (fun hsplit hd => hd.addEntrypoint hg hsplit) hd₂ with ⟨d₃, hentries, hd₃⟩
  refine ⟨d₃, ?_, hd₃⟩
  have hschema : ¬ (Document.encode g).schema ≠ Document.currentSchema := not_not.2 rfl
  rw [Document.decode, if_neg hschema]
  refine except_bind_eq_ok_iff.2 ⟨d₁, hnodes, ?_⟩
  refine except_bind_eq_ok_iff.2 ⟨d₂, hedges, ?_⟩
  exact except_bind_eq_ok_iff.2 ⟨d₃, hentries, rfl⟩

end CallGraph

end CallAtlas
