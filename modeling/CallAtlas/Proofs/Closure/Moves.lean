import CallAtlas.Proofs.Closure.Step
import Mathlib.Logic.Relation

/-!
# What Reading a Node Can Do

Reading a node is a nest of loops around a few changes: a site is recorded, or a
callee is found and called. Statements about cut runs and about initializers are not
about the answers of a hierarchy but about what happens to the graph and the worklist,
in whatever order. For these it is enough to know that reading a node is a chain of
moves, and what the moves are.

Nothing is assumed of the hierarchy here. It may answer differently each time it is
asked, so a cached answer says only that it was given once. What the hierarchy
remembers, what the caches hold and what was asked is dropped from the states that are
compared; `bare` states have the graph, the worklist and the counters.

Finding a callee is one move and not two, although it may make two nodes. A node whose
initializer has not been looked for is never seen between moves.

## Main definitions

* `Hierarchy.Mentions`: A unit occurs in an answer.
* `Closure.bare`: What is left of a closure without its hierarchy.
* `Closure.Cached`: The caches hold answers.
* `Closure.Found`: The node of a unit is found or made.
* `Closure.Move`: A site is recorded, or a callee is found and called.

## Theorems

* `Closure.found_nodeFor`: Looking for the node of a unit finds it.
* `Closure.moves_visitSite`: Visiting a site is a chain of moves.
* `Closure.moves_step`: Reading a node is a chain of moves.
-/

namespace CallAtlas

/-- A unit occurs in an answer, in some state of the hierarchy. -/
inductive Hierarchy.Mentions {σ : Type} (h : Hierarchy σ) : CodeUnit → Prop
  | single {r : MethodRef} {u : CodeUnit} (w : σ) : ((h.single r).run w).1 = some u → Mentions h u
  | overrides {r : MethodRef} {u : CodeUnit} (w : σ) : u ∈ ((h.overrides r).run w).1 → Mentions h u
  | initializer {v u : CodeUnit} (w : σ) : ((h.initializer v).run w).1 = some u → Mentions h u
  | wrapper {n : Node} {s : CallSite} {u : CodeUnit} (w : σ) :
      ((h.wrapper n s).run w).1 = some u → Mentions h u

/-- With answers that do not change, it makes no difference in which state they are given. -/
theorem Answers.GivenBy.mentions {σ : Type} {a : Answers} {h : Hierarchy σ} (ha : a.GivenBy h)
    {u : CodeUnit} (hu : h.Mentions u) : a.Mentions u := by
  cases hu with
  | single w hu => exact .single ((ha.single _ w).symm.trans hu)
  | overrides w hu =>
      rw [ha.overrides] at hu
      exact .overrides hu
  | initializer w hu => exact .initializer ((ha.initializer _ w).symm.trans hu)
  | wrapper w hu => exact .wrapper ((ha.wrapper _ _ w).symm.trans hu)

namespace Closure

open Relation (ReflTransGen)

variable {σ : Type} {h : Hierarchy σ} {n : Node} {c : Closure σ}

/-- What is left of a closure without its hierarchy. -/
def bare (c : Closure σ) : Closure Unit where
  world := ()
  graph := c.graph
  worklist := c.worklist
  created := c.created
  initializers := c.initializers
  pops := c.pops

/-- The caches hold answers of the hierarchy. -/
structure Cached (h : Hierarchy σ) (c : Closure σ) : Prop where
  candidates : ∀ {key us}, c.candidates.find? key = some us → ∀ u ∈ us, h.Mentions u
  wrappers : ∀ {key u}, c.wrappers.find? key = some (some u) → h.Mentions u

/-- The node of a unit is found or made. A node that is made brings the initializer of
    its class with it, if the hierarchy knows of one. -/
inductive Found (h : Hierarchy σ) : Closure Unit → Node → Closure Unit → Prop
  | known {c : Closure Unit} {u : CodeUnit} {m : Node} :
      c.graph.lookup u .everywhere = some m → h.Mentions u → Found h c m c
  | alone {c : Closure Unit} {u : CodeUnit} (w : σ) : c.graph.lookup u .everywhere = none →
      h.Mentions u → ((h.initializer u).run w).1 = none →
      Found h c (c.newNode u).1 (c.newNode u).2
  | initialized {c : Closure Unit} {u i : CodeUnit} (w : σ) :
      c.graph.lookup u .everywhere = none → h.Mentions u →
      ((h.initializer u).run w).1 = some i →
      Found h c (c.newNode u).1 ((c.newNode u).2.linkInitializer i)

/-- What happens while a node is read: one of its sites is recorded, or the callee of a
    site is found and called. -/
inductive Move (h : Hierarchy σ) (n : Node) : Closure Unit → Closure Unit → Prop
  | record {c : Closure Unit} (site : CallSite) :
      Move h n c { c with graph := c.graph.recordSite n.id site }
  | call {c c' : Closure Unit} {m : Node} (site : CallSite) : Found h c m c' →
      Move h n c { c' with graph := c'.graph.called n site m }

/-! ## Changes beside the graph -/

/-- The caches are not touched by most of what happens. -/
theorem Cached.congr {c' : Closure σ} (hc : Cached h c) (hcandidates : c'.candidates = c.candidates)
    (hwrappers : c'.wrappers = c.wrappers) : Cached h c' := by
  constructor
  · rw [hcandidates]
    exact hc.candidates
  · rw [hwrappers]
    exact hc.wrappers

/-- Linking an initializer does not ask the hierarchy, so it can be done without one. -/
theorem bare_linkInitializer (c : Closure σ) (i : CodeUnit) :
    (c.linkInitializer i).bare = c.bare.linkInitializer i := by
  unfold linkInitializer
  change _ = if (c.graph.lookup i .everywhere).isSome then c.bare else _
  split
  · rfl
  · rfl

theorem cached_linkInitializer (hc : Cached h c) (i : CodeUnit) : Cached h (c.linkInitializer i) := by
  unfold linkInitializer
  split
  · exact hc
  · exact hc.congr rfl rfl

/-- Looking for the node of a unit finds it. Whatever the hierarchy says about the
    initializer of the class is one of the two ways in which a node is made. -/
theorem found_nodeFor (hc : Cached h c) {u : CodeUnit} (hu : h.Mentions u) :
    Found h c.bare (c.nodeFor h u).1 (c.nodeFor h u).2.bare ∧ Cached h (c.nodeFor h u).2 := by
  unfold nodeFor
  cases hl : c.graph.lookup u .everywhere with
  | some m => exact ⟨.known hl hu, hc⟩
  | none =>
      -- The hierarchy is asked after the node was made, and its answer decides the case.
      rcases hask : (c.newNode u).2.ask (.initializer u) (h.initializer u) with ⟨o, c'⟩
      have hanswer : ((h.initializer u).run c.world).1 = o := congrArg Prod.fst hask
      have hbare : (c.newNode u).2.bare = c'.bare := congrArg (fun r => r.2.bare) hask
      have hc' : Cached h c' := by
        have hstate : ((c.newNode u).2.ask (.initializer u) (h.initializer u)).2 = c' :=
          congrArg Prod.snd hask
        rw [← hstate]
        exact hc.congr rfl rfl
      simp only [hask]
      cases o with
      | none =>
          rw [← hbare]
          exact ⟨.alone c.world hl hu hanswer, hc'⟩
      | some i =>
          rw [bare_linkInitializer, ← hbare]
          exact ⟨.initialized c.world hl hu hanswer, cached_linkInitializer hc' i⟩

/-- Linking a callee to a site is one move. -/
theorem move_link (hc : Cached h c) (site : CallSite) {u : CodeUnit} (hu : h.Mentions u) :
    Move h n c.bare (c.link h n site u).bare ∧ Cached h (c.link h n site u) := by
  have hlink : c.link h n site u = { (c.nodeFor h u).2 with
      graph := (c.nodeFor h u).2.graph.called n site (c.nodeFor h u).1 } := rfl
  have hfound := found_nodeFor hc hu
  rw [hlink]
  revert hfound
  rcases c.nodeFor h u with ⟨m, c'⟩
  intro hfound
  have hmove : Move h n c.bare { c'.bare with graph := c'.bare.graph.called n site m } :=
    .call site hfound.1
  exact ⟨hmove, hfound.2.congr rfl rfl⟩

/-- Linking several callees is a chain of moves, one for each. The caches are carried
    along because the next callee may be looked up in them. -/
theorem moves_links (site : CallSite) : ∀ (us : List CodeUnit) {c : Closure σ}, Cached h c →
    (∀ u ∈ us, h.Mentions u) →
    ReflTransGen (Move h n) c.bare (us.foldl (Closure.link h n site) c).bare ∧
      Cached h (us.foldl (Closure.link h n site) c) := by
  intro us
  induction us with
  | nil => exact fun hc _ => ⟨.refl, hc⟩
  | cons u rest ih =>
      intro c hc hus
      rcases move_link (n := n) hc site (hus u List.mem_cons_self) with ⟨hmove, hc'⟩
      rcases ih hc' fun v hv => hus v (List.mem_cons_of_mem u hv) with ⟨hmoves, hc''⟩
      exact ⟨.head hmove hmoves, hc''⟩

/-! ## Asking for the candidates of a site -/

/-- Asking for the candidates of a site changes nothing but the caches and the state of
    the hierarchy. What is found was mentioned, now or when it was cached. -/
theorem mentions_resolve (hc : Cached h c) (site : CallSite) :
    (c.resolve h site).2.bare = c.bare ∧ Cached h (c.resolve h site).2 ∧
      ∀ u ∈ (c.resolve h site).1, h.Mentions u := by
  unfold resolve
  cases hfind : c.candidates.find? (site.target, site.kind) with
  | some us => exact ⟨rfl, hc, hc.candidates hfind⟩
  | none =>
      -- What was found goes into the cache, so it has to be an answer.
      have hstore : ∀ {us} {c' : Closure σ}, (∀ u ∈ us, h.Mentions u) → c'.candidates = c.candidates →
          c'.wrappers = c.wrappers → Cached h { c' with
            candidates := c'.candidates.insert (site.target, site.kind) us } := by
        intro us c' hus hcandidates hwrappers
        refine ⟨?_, by rw [hwrappers]; exact hc.wrappers⟩
        intro key vs hvs
        rw [hcandidates, Table.find?_insert] at hvs
        split at hvs
        · rw [Option.some.injEq] at hvs
          rw [← hvs]
          exact hus
        · exact hc.candidates hvs
      cases hk : site.kind.isOverriding with
      | true =>
          have hus : ∀ u ∈ ((h.overrides site.target).run c.world).1, h.Mentions u :=
            fun u hu => .overrides c.world hu
          exact ⟨rfl, hstore hus rfl rfl, hus⟩
      | false =>
          have hus : ∀ u ∈ ((h.single site.target).run c.world).1.toList, h.Mentions u :=
            fun u hu => .single c.world (Option.mem_toList.1 hu)
          exact ⟨rfl, hstore hus rfl rfl, hus⟩

/-- The same for sites that make function objects. These are cached by node and site,
    since the object depends on where it is made. -/
theorem mentions_resolveWrapper (hc : Cached h c) (site : CallSite) :
    (c.resolveWrapper h n site).2.bare = c.bare ∧ Cached h (c.resolveWrapper h n site).2 ∧
      ∀ u ∈ (c.resolveWrapper h n site).1, h.Mentions u := by
  unfold resolveWrapper
  cases hfind : c.wrappers.find? (n.id, site) with
  | some o =>
      refine ⟨rfl, hc, fun u hu => ?_⟩
      rw [Option.mem_toList] at hu
      rw [hu] at hfind
      exact hc.wrappers hfind
  | none =>
      have hanswer : ∀ u, ((h.wrapper n site).run c.world).1 = some u → h.Mentions u :=
        fun u hu => .wrapper c.world hu
      refine ⟨rfl, ⟨hc.candidates, ?_⟩, fun u hu => hanswer u (Option.mem_toList.1 hu)⟩
      intro key u hu
      -- The cache is written under one key, and all others have what they had.
      change (c.wrappers.insert (n.id, site) _).find? key = some (some u) at hu
      rw [Table.find?_insert] at hu
      split at hu
      · exact hanswer u (Option.some.inj hu)
      · exact hc.wrappers hu

/-- Both kinds of sites ask in their own way, and both are answered with units that the
    hierarchy mentions. Apart from the caches and the hierarchy nothing is written. -/
theorem mentions_answer (hc : Cached h c) (site : CallSite) :
    ∃ us c', (if site.kind = .dynamic then c.resolveWrapper h n site else c.resolve h site) =
      (us, c') ∧ c'.bare = c.bare ∧ Cached h c' ∧ ∀ u ∈ us, h.Mentions u :=
  answer_cases (fun _ => mentions_resolveWrapper hc site) fun _ => mentions_resolve hc site

/-! ## Reading a node -/

/-- Visiting a site is a chain of moves: the site is recorded, and its candidates are
    called one by one. What the hierarchy does to itself meanwhile is not part of a
    move. -/
theorem moves_visitSite (hc : Cached h c) (only : Bool) (site : CallSite) :
    ReflTransGen (Move h n) c.bare (c.visitSite h only n site).bare ∧
      Cached h (c.visitSite h only n site) := by
  have hc₁ : Cached h { c with graph := c.graph.recordSite n.id site } := hc.congr rfl rfl
  have hrecord : Move h n c.bare
      (bare { c with graph := c.graph.recordSite n.id site }) := .record site
  rcases mentions_answer (n := n) hc₁ site with ⟨us, c₂, hask, hbare, hc₂, hus⟩
  have hlinks := moves_links (n := n) site (us.filter (relevant h only)) hc₂
    fun u hu => hus u (List.mem_of_mem_filter hu)
  rw [hbare] at hlinks
  rw [visitSite_of_answer hask]
  exact ⟨.head hrecord hlinks.1, hlinks.2⟩

theorem moves_visitSites (only : Bool) : ∀ (sites : List CallSite) {c : Closure σ}, Cached h c →
    ReflTransGen (Move h n) c.bare (sites.foldl (Closure.visitSite h only n) c).bare ∧
      Cached h (sites.foldl (Closure.visitSite h only n) c) := by
  intro sites
  induction sites with
  | nil => exact fun hc => ⟨.refl, hc⟩
  | cons site rest ih =>
      intro c hc
      rcases moves_visitSite (n := n) hc only site with ⟨hfirst, hc'⟩
      rcases ih hc' with ⟨hrest, hc''⟩
      exact ⟨hfirst.trans hrest, hc''⟩

/-- Looking into the code of a node asks at most one question. -/
theorem bare_sitesOf (hc : Cached h c) :
    (c.sitesOf h n).2.bare = c.bare ∧ Cached h (c.sitesOf h n).2 := by
  unfold sitesOf
  cases n.kind with
  | fakeRoot => exact ⟨rfl, hc⟩
  | fakeWorldClinit => exact ⟨rfl, hc⟩
  | ordinary => exact ⟨rfl, hc.congr rfl rfl⟩

/-- Reading a node is a chain of moves. An invariant of the graph need only be checked
    for one move to hold along every run of the worklist. -/
theorem moves_step (hc : Cached h c) (only : Bool) (n : Node) :
    ReflTransGen (Move h n) { c.bare with pops := c.pops + 1 } (step h only c n).bare ∧
      Cached h (step h only c n) := by
  have hpop : Cached h { c with pops := c.pops + 1 } := hc.congr rfl rfl
  rcases bare_sitesOf (n := n) hpop with ⟨hbare, hc₁⟩
  have hmoves := moves_visitSites (n := n) only
    (sitesOf h { c with pops := c.pops + 1 } n).1 hc₁
  rw [hbare] at hmoves
  exact hmoves

/-- Caches are empty at the start. -/
theorem cached_start (h : Hierarchy σ) (world : σ) (serial : Nat) (entries : List CodeUnit) :
    Cached h (start world serial entries) := by
  constructor
  · intro key us hus
    exact absurd hus (by simp [start])
  · intro key u hu
    exact absurd hu (by simp [start])

end Closure

end CallAtlas
