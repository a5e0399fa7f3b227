import CallAtlas.Proofs.Program.Resolution

/-!
# The Closure of a Program Is Complete

A closure takes at most as many nodes off its worklist as its hierarchy allows, and one more for
the root. For a program that allowance is the number of its functions. A closure that used it up
with nodes still waiting would look like a finished one: it was not cut short, and nothing in its
result says that code was left unread. This module shows that it does not happen.

The count is over functions that have code. A program may mention numbers of functions that it
does not have, and its index takes them in like any other. No harm comes from them: a function
that is not there has no code, and no such function gets a node. That needs a look at who gets
one. A node is made for a candidate that the closure found relevant, or for the initializer of the
class of such a candidate. So the functions with nodes are among those that the program has, and
since a function keeps the reference that it was given, none has two nodes.

Nothing is assumed of the program.

## Main definitions

* `Closure.Entitled`: A unit may have a node.
* `Closure.Entitles`: The nodes of a graph are those of units that may have one.

## Theorems

* `Closure.entitles_advance`: Only units that may have a node get one.
* `Program.hasCode_of_contains`: The ordinary nodes of a closure are functions with code.
* `Program.live_closureOf_le`: There are no more of them than functions.
* `Program.worklist_closureOf_iff`: A closure that was not cut short has read everything.
* `Program.closureOf_of_unbounded`: For a caller that waits the closure is whole.
-/

namespace CallAtlas

namespace Closure

variable {σ : Type} {h : Hierarchy σ} {only : Bool} {n : Node} {c : Closure σ} {u : CodeUnit}

/-! ## Who gets a node -/

/-- A unit may have a node: the closure found it relevant, or it initializes a class. -/
def Entitled (h : Hierarchy σ) (only : Bool) (u : CodeUnit) : Prop :=
  relevant h only u ∨ ∃ v w, ((h.initializer v).run w).1 = some u

/-- The ordinary nodes of a graph are those of units that may have one. -/
def Entitles (h : Hierarchy σ) (only : Bool) (g : Graph) : Prop :=
  ∀ n, g.contains n → n.kind = .ordinary → Entitled h only n.unit

/-- A new node is one of a unit that may have it. -/
theorem entitles_newNode (hc : Entitles h only c.graph) (hu : Entitled h only u) :
    Entitles h only (c.newNode u).2.graph := by
  intro k hk hord
  rcases Graph.contains_create.1 hk with hk | rfl
  · exact hc k hk hord
  · exact hu

theorem entitles_called (m : Node) (site : CallSite) {g : Graph} (hg : Entitles h only g) :
    Entitles h only (g.called n site m) :=
  fun k hk => hg k (Graph.contains_called.1 hk)

/-- The initializer of a class has a node, or gets one that it may have. -/
theorem entitles_linkInitializer (hc : Entitles h only c.graph) (hu : Entitled h only u) :
    Entitles h only (c.linkInitializer u).graph := by
  cases hl : c.graph.lookup u .everywhere with
  | some m =>
      rw [linkInitializer_of_some hl]
      exact hc
  | none =>
      rw [linkInitializer_of_none hl]
      exact entitles_called _ _ (entitles_newNode hc hu)

/-- A node is made for the unit that was looked for and for the initializer of its
    class. The answer to the question about the initializer is what entitles the second. -/
theorem entitles_nodeFor (hc : Entitles h only c.graph) (hu : Entitled h only u) :
    Entitles h only (c.nodeFor h u).2.graph := by
  unfold nodeFor
  cases hl : c.graph.lookup u .everywhere with
  | some m => exact hc
  | none =>
      have hmade := entitles_newNode hc hu
      rcases hask : (c.newNode u).2.ask (.initializer u) (h.initializer u) with ⟨o, c'⟩
      have hanswer : ((h.initializer u).run c.world).1 = o := congrArg Prod.fst hask
      -- Asking does not change the graph, so the new node is all that was made.
      have hgraph : (c.newNode u).2.graph = c'.graph := congrArg (fun r => r.2.graph) hask
      rw [hgraph] at hmade
      simp only [hask]
      cases o with
      | none => exact hmade
      | some i => exact entitles_linkInitializer hmade (Or.inr ⟨u, c.world, hanswer⟩)

theorem entitles_link (site : CallSite) (hc : Entitles h only c.graph) (hu : Entitled h only u) :
    Entitles h only (c.link h n site u).graph :=
  entitles_called _ site (entitles_nodeFor hc hu)

/-- Linking units makes nodes for them at most. -/
theorem entitles_links (site : CallSite) : ∀ (us : List CodeUnit) {c : Closure σ},
    Entitles h only c.graph → (∀ u ∈ us, Entitled h only u) →
    Entitles h only (us.foldl (Closure.link h n site) c).graph := by
  intro us
  induction us with
  | nil => exact fun hc _ => hc
  | cons u rest ih =>
      intro c hc hus
      rw [List.forall_mem_cons] at hus
      exact ih (entitles_link site hc hus.1) hus.2

/-- Asking for the candidates of a site leaves the graph. -/
theorem graph_resolve (c : Closure σ) (site : CallSite) : (c.resolve h site).2.graph = c.graph := by
  unfold resolve
  cases c.candidates.find? (site.target, site.kind) with
  | some us => rfl
  | none => cases site.kind.isOverriding <;> rfl

theorem graph_resolveWrapper (c : Closure σ) (site : CallSite) :
    (c.resolveWrapper h n site).2.graph = c.graph := by
  unfold resolveWrapper
  split <;> rfl

theorem graph_sitesOf (c : Closure σ) : (c.sitesOf h n).2.graph = c.graph := by
  unfold sitesOf
  split <;> rfl

/-- Of the candidates of a site only the relevant ones are linked. So what is linked may
    have a node, whatever the site was answered with. -/
theorem entitles_visitSite (site : CallSite) (hc : Entitles h only c.graph) :
    Entitles h only (c.visitSite h only n site).graph := by
  have hrecord : Entitles h only (c.graph.recordSite n.id site) :=
    fun k hk => hc k ((Graph.keeps_recordSite c.graph n.id site).contains_iff.1 hk)
  have hrelevant : ∀ us : List CodeUnit, ∀ u ∈ us.filter (relevant h only), Entitled h only u :=
    fun us u hu => Or.inl (List.mem_filter.1 hu).2
  -- Whichever question the site was answered by, the graph is that with the site recorded.
  rcases answer_cases (h := h) (c := { c with graph := c.graph.recordSite n.id site }) (n := n)
    (P := fun _ c' => c'.graph = c.graph.recordSite n.id site)
    (fun _ => graph_resolveWrapper _ site) (fun _ => graph_resolve _ site)
    with ⟨us, c', hask, hgraph⟩
  rw [← hgraph] at hrecord
  rw [visitSite_of_answer hask]
  exact entitles_links site _ hrecord (hrelevant us)

/-- Visiting sites makes nodes for units that may have one. -/
theorem entitles_visitSites : ∀ (sites : List CallSite) {c : Closure σ}, Entitles h only c.graph →
    Entitles h only (sites.foldl (Closure.visitSite h only n) c).graph := by
  intro sites
  induction sites with
  | nil => exact fun hc => hc
  | cons site rest ih => exact fun hc => ih (entitles_visitSite site hc)

/-- Reading a node makes nodes for units that may have one. -/
theorem entitles_step (hc : Entitles h only c.graph) : Entitles h only (step h only c n).graph := by
  have hgraph : (sitesOf h { c with pops := c.pops + 1 } n).2.graph = c.graph := graph_sitesOf _
  have hread : Entitles h only (sitesOf h { c with pops := c.pops + 1 } n).2.graph := by
    rw [hgraph]
    exact hc
  exact entitles_visitSites _ hread

/-- Only units that may have a node get one. The number of steps does not matter, so
    this holds of a closure that was cut short as well. -/
theorem entitles_advance (k : Nat) (hc : Entitles h only c.graph) :
    Entitles h only (advance h only k c).graph := by
  induction k generalizing c with
  | zero => exact hc
  | succ k ih =>
      cases hw : c.worklist with
      | nil =>
          rw [advance_of_done _ hw]
          exact hc
      | cons n rest =>
          have htaken : Entitles h only ({ c with worklist := rest } : Closure σ).graph := hc
          rw [advance_succ _ hw]
          exact ih (entitles_step htaken)

theorem entitles_start (h : Hierarchy σ) (only : Bool) (world : σ) (serial : Nat)
    (entries : List CodeUnit) : Entitles h only (start world serial entries).graph := by
  intro n hn hord
  rw [graph_start, (Graph.keeps_recordSites Graph.rootId _ _).contains_iff] at hn
  exact absurd hord (not_ordinary_fresh hn)

end Closure

/-! ## Functions with code -/

namespace Program

variable {p : Program}

/-- A function that is not there has no code. -/
theorem lt_size_of_hasBody {f : Nat} (hf : (p.function f).hasBody) : f < p.functions.size := by
  by_contra hout
  have hnone : p.functions[f]? = none := Array.getElem?_eq_none (by omega)
  rw [function, hnone] at hf
  exact absurd hf (by simp)

/-- A program answers with the initializer of a class only if it has code. -/
theorem hasBody_of_initializer {w : World} {v u : CodeUnit}
    (h : ((World.initializer p v).run w).1 = some u) :
    ∃ f, u.function? = some f ∧ (p.function f).hasBody := by
  unfold World.initializer at h
  split at h
  · next i _ =>
    split at h
    · -- The function that initializes the class is answered only if it has a body.
      next hbody =>
      refine ⟨i, ?_, hbody⟩
      rw [← Option.some.inj h]
      rfl
    · have hnone : (none : Option CodeUnit) = some u := h
      cases hnone
  · have hnone : (none : Option CodeUnit) = some u := h
    cases hnone

/-- A function that may have a node has code. Relevant units are not abstract, and a
    function is abstract if it has no code. -/
theorem hasBody_of_entitled {project : Project} {only : Bool} {u : CodeUnit} {f : Nat}
    (h : Closure.Entitled (p.hierarchy project) only u) (hu : u.function? = some f) :
    (p.function f).hasBody := by
  rcases h with hrelevant | ⟨v, w, hinit⟩
  · have habstract : (p.hierarchy project).isAbstract u = false := by
      rw [Closure.relevant, Bool.and_eq_true, Bool.not_eq_true'] at hrelevant
      exact hrelevant.1
    change (u.function?.any fun f => !(p.function f).hasBody) = false at habstract
    rw [hu, Option.any_some, Bool.not_eq_false'] at habstract
    exact habstract
  · rcases hasBody_of_initializer hinit with ⟨g, hg, hbody⟩
    rw [hu, Option.some.injEq] at hg
    rw [hg]
    exact hbody

variable (p) (project : Project) (starts : List Nat) (serial : Nat) (only : Bool) (life : Lifetime)

/-- Whatever ends it, a closure of a program has read some number of nodes. The
    entrypoints are indexed before, so it starts from a world in which they are known. -/
theorem exists_closureOf_eq_advance :
    ∃ k, (p.closureOf project starts serial only life).1 =
      Closure.advance (p.hierarchy project) only k
        (Closure.start ((World.units p starts).run (World.start p)).2 serial
          ((World.units p starts).run (World.start p)).1) :=
  Closure.exists_run_eq_advance (p.hierarchy project) only ((p.hierarchy project).bound + 1) life _

/-- The ordinary nodes of a closure are functions of the program that have code. That a
    node is a function follows from what the program knows, that the function has code
    from how nodes come about. -/
theorem hasCode_of_contains {n : Node}
    (hn : (p.closureOf project starts serial only life).1.graph.contains n)
    (hord : n.kind = .ordinary) :
    ∃ f, n.unit.function? = some f ∧ f < p.functions.size ∧ (p.function f).hasBody := by
  rcases (informed_closureOf p project starts serial only life).nodes hn hord with
    ⟨f, ref, _, hunit⟩
  have hf : n.unit.function? = some f := by
    rw [hunit]
    rfl
  rcases exists_closureOf_eq_advance p project starts serial only life with ⟨k, hk⟩
  rw [hk] at hn
  have hentitled := Closure.entitles_advance k (Closure.entitles_start _ only _ serial _) n hn hord
  have hbody := hasBody_of_entitled hentitled hf
  exact ⟨f, hf, lt_size_of_hasBody hbody, hbody⟩

/-- There are no more nodes than functions, and two roots. A function is one unit, since
    its reference does not change, and a unit has one node. -/
theorem live_closureOf_le :
    (p.closureOf project starts serial only life).1.graph.live ≤ p.functions.size + 2 := by
  let c := (p.closureOf project starts serial only life).1
  -- Whatever is known of a function, it is one unit.
  let unitOf (f : Nat) : CodeUnit := c.world.index.unit p f
  let numbers := Finset.range p.functions.size
  let units : Set CodeUnit := unitOf '' numbers
  have horderly := orderly_closureOf p project starts serial only life
  have hinformed := informed_closureOf p project starts serial only life
  have hunits : ∀ {n}, c.graph.contains n → n.kind = .ordinary → n.unit ∈ units := by
    intro n hn hord
    rcases hinformed.nodes hn hord with ⟨f, ref, href, hunit⟩
    rcases hasCode_of_contains p project starts serial only life hn hord with ⟨g, hg, hlt, _⟩
    rw [hunit] at hg
    obtain rfl : f = g := Option.some.inj hg
    refine ⟨f, Finset.mem_coe.2 (Finset.mem_range.2 hlt), ?_⟩
    rw [hunit]
    exact FunctionIndex.unit_of_find? href
  have hfinite : units.Finite := numbers.finite_toSet.image unitOf
  have hcard : units.ncard ≤ p.functions.size := by
    calc units.ncard ≤ (numbers : Set Nat).ncard := Set.ncard_image_le numbers.finite_toSet
      _ = numbers.card := Set.ncard_coe_finset numbers
      _ = p.functions.size := Finset.card_range _
  exact horderly.wellFormed.live_le_of_everywhere horderly.everywhere hunits hfinite hcard

/-- A closure of a program was cut short exactly if it leaves something to read. The number of
    functions is thus enough for every program, and what the closure returns without a cause is
    the whole graph: nothing in it waits to be read. -/
theorem worklist_closureOf_iff :
    (p.closureOf project starts serial only life).1.worklist = [] ↔
      (p.closureOf project starts serial only life).2 = none := by
  let entered := (World.units p starts).run (World.start p)
  let c := Closure.start entered.2 serial entered.1
  let h := p.hierarchy project
  have hstart : Closure.Orderly h none c.bare := Closure.orderly_start h _ serial _
  have hcached : Closure.Cached h c := Closure.cached_start h _ serial _
  have hbound : h.bound < h.bound + 1 + c.pops := by omega
  -- All steps together leave nothing, since there are no more nodes than functions.
  have hall : (Closure.advance h only (h.bound + 1) c).worklist = [] := by
    have hlive := live_closureOf_le p project starts serial only .unbounded
    have hwhole : (p.closureOf project starts serial only .unbounded).1 =
        Closure.advance h only (h.bound + 1) c :=
      congrArg Prod.fst (Closure.run_of_unbounded rfl (h.bound + 1) c)
    rw [hwhole] at hlive
    exact hstart.worklist_of_live_le hcached only hlive hbound
  exact Closure.worklist_run_iff hall life

/-- For a caller that waits for ever the closure is whole. This is the closure that an
    analysis works with. -/
theorem closureOf_of_unbounded (hlife : life.polls = none) :
    (p.closureOf project starts serial only life).2 = none ∧
      (p.closureOf project starts serial only life).1.worklist = [] := by
  have hended : (p.closureOf project starts serial only life).2 = none :=
    congrArg Prod.snd (Closure.run_of_unbounded hlife _ _)
  exact ⟨hended, (worklist_closureOf_iff p project starts serial only life).2 hended⟩

end Program

end CallAtlas
