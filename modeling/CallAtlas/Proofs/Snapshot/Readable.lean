import CallAtlas.Proofs.Snapshot.Replay

/-!
# Documents That Can Be Read

What is written of a lawful graph can be read again. This asks for less than getting the
same graph back: two nodes whose units and contexts have the same texts become one, and
the result is a graph all the same. All that can go wrong is a dispatch kind without a
name, a number that no record has, or a position that is not among the sites of the
caller.

So nothing about the graph in the making has to be known. The invariant speaks only of
the two tables beside it: each node that was read has a number, and under its old number
stand the sites that the graph had.

## Main definitions

* `CallGraph.Named`: Every site to be seen has a dispatch kind with a name.
* `CallGraph.Readied`: The tables of a draft after some nodes were read.

## Theorems

* `CallGraph.Readied.addNode`, `CallGraph.Readied.addEdge`, `CallGraph.Readied.addEntrypoint`:
  One more record is accepted.
* `CallGraph.exists_decode_encode`: What is written can be read.
-/

namespace CallAtlas

namespace CallGraph

open Document

variable {G : Type} [CallGraph G] {g : G} {d : Draft}

/-- Every site to be seen has a dispatch kind with a name. -/
def Named (g : G) : Prop := ∀ n ∈ nodes g, ∀ s ∈ callSites g n, s.kind ∈ Dispatch.named

instance : Decidable (Named g) :=
  inferInstanceAs (Decidable (∀ n ∈ nodes g, ∀ s ∈ callSites g n, s.kind ∈ Dispatch.named))

/-- The tables of a draft after some nodes were read. -/
structure Readied (g : G) (done : List Node) (d : Draft) : Prop where
  number : ∀ {n}, n ∈ done → ∃ i, d.numbers.find? n.id = some i
  sitesOf_eq : ∀ {n}, n ∈ done → d.sitesOf n.id = callSites g n
  sitesOf_else : ∀ {i}, (∀ n ∈ done, n.id ≠ i) → d.sitesOf i = []

theorem readied_fresh (g : G) (serial : Nat) : Readied g [] { graph := Graph.fresh serial } :=
  ⟨fun hn => absurd hn (by simp), fun hn => absurd hn (by simp), fun _ => rfl⟩

/-- One more node is accepted, whatever node it turns out to be. Two records may stand
    for one node, and the tables are kept by recorded number, which they do not share. -/
theorem Readied.addNode (hg : Lawful g) (hnamed : Named g) {before after : List Node} {n : Node}
    (hsplit : nodes g = before ++ n :: after) (hd : Readied g before d) :
    ∃ d', d.addNode (nodeRecord g n) = .ok d' ∧ Readied g (before ++ [n]) d' := by
  have hn : n ∈ nodes g := mem_nodes_of_mem_concat hsplit (by simp)
  -- Numbers ascend, so no record before this one has its number.
  have hne : ∀ m ∈ before, m.id ≠ n.id := fun m hm => Int.ne_of_lt (hg.lt_of_nodes_eq hsplit hm)
  let made := Draft.nodeFor d.graph (nodeRecord g n)
  let d₁ : Draft := { d with graph := made.1, numbers := d.numbers.insert n.id made.2 }
  rcases Draft.addSites_eq n.id made.2 (callSites g n) d₁ (hnamed n hn) with
    ⟨d', hok, _, hnumbers, hsites⟩
  have hsites' : ∀ i, d'.sitesOf i =
      if i = n.id then d.sitesOf i ++ callSites g n else d.sitesOf i := hsites
  refine ⟨d', hok, ?_, ?_, ?_⟩
  · intro m hm
    rw [hnumbers, Table.find?_insert]
    rcases List.mem_append.1 hm with hold | hnew
    · rw [if_neg (Ne.symm (hne m hold))]
      exact hd.number hold
    · rw [List.mem_singleton.1 hnew, if_pos rfl]
      exact ⟨made.2, rfl⟩
  · intro m hm
    rw [hsites']
    rcases List.mem_append.1 hm with hold | hnew
    · rw [if_neg (hne m hold)]
      exact hd.sitesOf_eq hold
    · rw [List.mem_singleton.1 hnew, if_pos rfl, hd.sitesOf_else hne, List.nil_append]
  · intro i hi
    rw [hsites', if_neg fun h => hi n (by simp) h.symm]
    exact hd.sitesOf_else fun m hm => hi m (List.mem_append_left _ hm)

/-- Changes of the graph leave the tables alone. -/
theorem Readied.congr {done : List Node} (hd : Readied g done d) (graph : Graph) :
    Readied g done { d with graph } :=
  ⟨hd.number, hd.sitesOf_eq, hd.sitesOf_else⟩

/-- One more edge is accepted. Its ends are nodes of the graph, and its positions are
    taken in the list of sites that the draft keeps for the caller. -/
theorem Readied.addEdge (hg : Lawful g) {e : Node × Node} (he : e ∈ edges g)
    (hd : Readied g (nodes g) d) :
    ∃ d', d.addEdge (edgeRecord g e) = .ok d' ∧ Readied g (nodes g) d' := by
  rcases hg.mem_edges.1 he with ⟨hsrc, hdst, _⟩
  rcases hd.number hsrc with ⟨src, hfirst⟩
  rcases hd.number hdst with ⟨dst, hsecond⟩
  have hmem : ∀ s ∈ sitesBetween g e.1 e.2, s ∈ callSites g e.1 := by
    intro s hs
    rw [hg.sitesBetween_eq] at hs
    exact List.mem_of_mem_filter hs
  have hadd : d.addEdge (edgeRecord g e) =
      if (edgeRecord g e).sites.isEmpty then .ok { d with graph := d.graph.link src dst }
      else (edgeRecord g e).sites.foldlM (Draft.addCall (edgeRecord g e) src dst) d := by
    -- Both ends have been read, so their numbers are known.
    have hcaller : d.numbers.find? (edgeRecord g e).src = some src := hfirst
    have hcallee : d.numbers.find? (edgeRecord g e).dst = some dst := hsecond
    rw [Draft.addEdge, hcaller, hcallee]
  rw [hadd]
  split
  · exact ⟨_, rfl, hd.congr _⟩
  · exact ⟨_, Draft.addCalls_eq _ src dst (callSites g e.1) _ d (hd.sitesOf_eq hsrc) hmem,
      hd.congr _⟩

/-- One more entrypoint is accepted. -/
theorem Readied.addEntrypoint (hg : Lawful g) {n : Node} (hn : n ∈ entrypoints g)
    (hd : Readied g (nodes g) d) :
    ∃ d', d.addEntrypoint n.id = .ok d' ∧ Readied g (nodes g) d' := by
  rcases hd.number (hg.mem_of_mem_entrypoints hn) with ⟨i, hi⟩
  refine ⟨_, ?_, hd.congr (d.graph.markEntrypoint i)⟩
  rw [Draft.addEntrypoint, hi]

/-- What is written of a lawful graph can be read, if its sites have kinds with a name.
    Nodes need not be told apart for that, so the result may be another graph. -/
theorem exists_decode_encode (hg : Lawful g) (hnamed : Named g) (serial : Nat) :
    ∃ g', Document.decode serial (Document.encode g) = .ok g' := by
  have hmem : ∀ {α : Type} {l done rest : List α} {x : α}, l = done ++ x :: rest → x ∈ l := by
    rintro α l done rest x rfl
    exact List.mem_append_right done List.mem_cons_self
  -- The tables are complete when the nodes are read, and stay so.
  rcases foldlM_ok (f := Draft.addNode) (r := nodeRecord g) (P := Readied g)
    (fun hsplit hd => hd.addNode hg hnamed hsplit) (readied_fresh g serial) with ⟨d₁, hnodes, hd₁⟩
  rcases foldlM_ok (f := Draft.addEdge) (r := edgeRecord g) (P := fun _ => Readied g (nodes g))
    (fun hsplit hd => hd.addEdge hg (hmem hsplit)) hd₁ with ⟨d₂, hedges, hd₂⟩
  rcases foldlM_ok (f := Draft.addEntrypoint) (r := fun n : Node => n.id)
    (P := fun _ => Readied g (nodes g))
    (fun hsplit hd => hd.addEntrypoint hg (hmem hsplit)) hd₂ with ⟨d₃, hentries, _⟩
  have hschema : ¬ (Document.encode g).schema ≠ Document.currentSchema := not_not.2 rfl
  refine ⟨d₃.graph, ?_⟩
  rw [Document.decode, if_neg hschema]
  refine except_bind_eq_ok_iff.2 ⟨d₁, hnodes, ?_⟩
  refine except_bind_eq_ok_iff.2 ⟨d₂, hedges, ?_⟩
  exact except_bind_eq_ok_iff.2 ⟨d₃, hentries, rfl⟩

end CallGraph

end CallAtlas
