import CallAtlas.Proofs.Closure.Outline

/-!
# Closures Compared

What a closure finds depends on the program and not on the way in which it is explored.
Entrypoints in another order, or overrides listed in another order, lead to a graph with the
same outline. Only what the fake world-clinit node calls may come out differently: whether it
calls an initializer depends on whether the initializer or its class was met first.

A closure that is restricted to application code finds a part of what the unrestricted one
finds. The restriction is put on what may be called and not on initializers, so the restricted
graph may contain library code all the same, and it is not simply the unrestricted graph with
the library removed: what only library code calls is not found at all.

Both statements are about two runs that have nothing to do with each other. They are read off
the outlines, and these are determined by the least closed set of units. Reordering does not
change which sets are closed, and a set that is closed without the restriction is closed with
it.

The fake world-clinit node stands for no unit of the program. Its sites number the initializers
in the order in which they were met, so they are left out of both statements.

## Main definitions

* `Answers.Reordered`: Other answers list the same overrides in another order.
* `Node.unnumbered`: What a node is apart from its number.

## Theorems

* `Answers.Reordered.candidate_iff`, `Answers.Reordered.closed_iff`: Reordering changes neither
  candidates nor closed sets.
* `Answers.candidate_true_iff`, `Answers.Closed.restrict`: What the restriction changes.
* `Closure.Sound.perm_unnumbered`: Closures with the same units have the same nodes.
* `Closure.build_order_irrelevant`: The outline does not depend on the order.
* `Closure.build_application_only`: The restricted closure is a part of the unrestricted one.
-/

namespace CallAtlas

namespace Answers

variable {a a' : Answers} {only : Bool} {entries entries' : List CodeUnit}

/-! ## Answers in another order -/

/-- Other answers list the same overrides in another order, and differ in nothing else. -/
def Reordered (a a' : Answers) : Prop :=
  ∃ overrides : MethodRef → List CodeUnit,
    (∀ r, (a.overrides r).Perm (overrides r)) ∧ a' = { a with overrides := overrides }

/-- The same units are mentioned, since only the places of overrides in their lists change. -/
theorem Reordered.mentions_iff (h : a.Reordered a') {u : CodeUnit} :
    a.Mentions u ↔ a'.Mentions u := by
  rcases h with ⟨overrides, hperm, rfl⟩
  constructor
  · intro hu
    cases hu with
    | single hu => exact .single hu
    -- Only here do the two families differ, and a permutation has the same members.
    | @overrides r _ hu => exact .overrides ((hperm r).mem_iff.1 hu)
    | initializer hu => exact .initializer hu
    | wrapper hu => exact .wrapper hu
  · intro hu
    cases hu with
    | single hu => exact .single hu
    | @overrides r _ hu => exact .overrides ((hperm r).mem_iff.2 hu)
    | initializer hu => exact .initializer hu
    | wrapper hu => exact .wrapper hu

/-- What is asked of answers does not depend on their order. -/
theorem Reordered.admissible (h : a.Reordered a') {bound : Nat} (ha : a.Admissible bound) :
    a'.Admissible bound := by
  have hmentions : {u | a'.Mentions u} = {u | a.Mentions u} := Set.ext fun u => h.mentions_iff.symm
  refine ⟨?_, ?_, fun hu => ha.not_synthetic (h.mentions_iff.2 hu), ?_⟩
  · rw [hmentions]
    exact ha.finite
  · rw [hmentions]
    exact ha.ncard_le
  · rcases h with ⟨overrides, _, rfl⟩
    exact ha.initializer_of_initializer

/-- The candidates of a site are a set as far as this is concerned, and reordering does
    not change it. -/
theorem Reordered.candidate_iff (h : a.Reordered a') {u v : CodeUnit} {site : CallSite} :
    a.Candidate only u site v ↔ a'.Candidate only u site v := by
  rcases h with ⟨overrides, hperm, rfl⟩
  unfold Candidate
  refine and_congr Iff.rfl ?_
  cases site.kind with
  | virtual => exact (hperm site.target).mem_iff
  | interface => exact (hperm site.target).mem_iff
  | dynamic => exact Iff.rfl
  | static => exact Iff.rfl
  | special => exact Iff.rfl
  | unnamed code => exact Iff.rfl

/-- Reordering keeps everything but the overrides. -/
theorem Reordered.entry_iff (h : a.Reordered a') (hentries : entries.Perm entries') {v : CodeUnit} :
    (∃ e ∈ entries, a.single e.ref = some v ∧ a.Relevant only v) ↔
      ∃ e ∈ entries', a'.single e.ref = some v ∧ a'.Relevant only v := by
  rcases h with ⟨overrides, _, rfl⟩
  exact exists_congr fun e => and_congr hentries.mem_iff Iff.rfl

/-- One direction is enough, since answers can be put back into their first order. -/
theorem Reordered.closed (h : a.Reordered a') (hentries : entries.Perm entries')
    {units : Set CodeUnit} (hclosed : a.Closed only entries units) : a'.Closed only entries' units := by
  have hcandidate : ∀ {u site v}, a'.Candidate only u site v → a.Candidate only u site v :=
    fun hv => h.candidate_iff.2 hv
  rcases h with ⟨overrides, _, rfl⟩
  refine ⟨fun e he => hclosed.entry e (hentries.mem_iff.2 he), ?_, hclosed.initializer⟩
  intro u hu site hsite v hv
  exact hclosed.call u hu site hsite v (hcandidate hv)

theorem Reordered.symm (h : a.Reordered a') : a'.Reordered a := by
  rcases h with ⟨overrides, hperm, rfl⟩
  exact ⟨a.overrides, fun r => (hperm r).symm, rfl⟩

/-- Reordering does not change which sets of units are closed. -/
theorem Reordered.closed_iff (h : a.Reordered a') (hentries : entries.Perm entries')
    {units : Set CodeUnit} : a.Closed only entries units ↔ a'.Closed only entries' units :=
  ⟨h.closed hentries, h.symm.closed hentries.symm⟩

/-! ## Application code only -/

/-- With the restriction the candidates are those that the application declares. -/
theorem candidate_true_iff {u v : CodeUnit} {site : CallSite} :
    a.Candidate true u site v ↔ a.Candidate false u site v ∧ a.loader v = .application := by
  simp only [Candidate, Relevant, forall_const, Bool.false_eq_true, false_implies, and_true]
  exact and_right_comm

/-- A set that is closed without the restriction is closed with it. -/
theorem Closed.restrict {units : Set CodeUnit} (h : a.Closed false entries units) :
    a.Closed true entries units := by
  refine ⟨fun e he v hv hrel => ?_, fun u hu site hsite v hv => ?_, h.initializer⟩
  · exact h.entry e he v hv ⟨hrel.1, by simp⟩
  · exact h.call u hu site hsite v (candidate_true_iff.1 hv).1

end Answers

/-- What a node is apart from its number and its graph. -/
def Node.unnumbered (n : Node) : CodeUnit × Context × NodeKind := (n.unit, n.context, n.kind)

namespace Closure

variable {σ σ' : Type} {a a' : Answers} {only only' : Bool} {entries entries' : List CodeUnit}

/-! ## The nodes of closures with the same units -/

section Nodes

variable {g g' : Graph} (hg : Sound a only entries g) (hg' : Sound a' only' entries' g')
include hg

/-- No two nodes of a closure are the same apart from their numbers. -/
theorem Sound.unnumbered_nodup : (g.nodes.map Node.unnumbered).Nodup := by
  refine List.Nodup.map_on ?_ (nodup_of_ascending hg.wellFormed.nodes_ascending)
  intro n hn m hm heq
  have hunit : n.unit = m.unit := congrArg Prod.fst heq
  have hcontains := fun {k} => hg.wellFormed.contains_iff_mem_nodes (n := k)
  exact hg.eq_of_unit_eq (hcontains.2 hn) (hcontains.2 hm) hunit

/-- Apart from its number, a node is a unit with its kind. -/
theorem Sound.mem_unnumbered {u : CodeUnit} {x : Context} {k : NodeKind} :
    (u, x, k) ∈ g.nodes.map Node.unnumbered ↔ x = .everywhere ∧ u ∈ g.unitsOf k := by
  rw [List.mem_map]
  constructor
  · rintro ⟨n, hn, heq⟩
    have hn := hg.wellFormed.contains_iff_mem_nodes.2 hn
    simp only [Node.unnumbered, Prod.mk.injEq] at heq
    rcases heq with ⟨rfl, rfl, rfl⟩
    exact ⟨hg.everywhere hn, n, hn, rfl, rfl⟩
  · rintro ⟨rfl, n, hn, rfl, rfl⟩
    refine ⟨n, hg.wellFormed.contains_iff_mem_nodes.1 hn, ?_⟩
    rw [Node.unnumbered, hg.everywhere hn]

theorem Sound.entryUnits_nodup : ((CallGraph.entrypoints g).map Node.unit).Nodup := by
  have hlawful := hg.wellFormed.lawful
  refine List.Nodup.map_on ?_ hlawful.entrypoints_nodup
  intro n hn m hm hunit
  have hcontains := fun {k} (hk : k ∈ CallGraph.entrypoints g) =>
    hlawful.contains_iff.2 (hlawful.mem_of_mem_entrypoints hk)
  exact hg.eq_of_unit_eq (hcontains hn) (hcontains hm) hunit

include hg'

/-- Closures with the same ordinary units have the same nodes apart from their numbers.
    The synthetic nodes are in both, and no node is in either list twice. -/
theorem Sound.perm_unnumbered (hunits : g.unitsOf .ordinary = g'.unitsOf .ordinary) :
    (g.nodes.map Node.unnumbered).Perm (g'.nodes.map Node.unnumbered) := by
  have hkinds : ∀ k, g.unitsOf k = g'.unitsOf k := by
    intro k
    by_cases hk : k = .ordinary
    · rw [hk]
      exact hunits
    · exact hg.wellFormed.unitsOf_eq_of_synthetic hg'.wellFormed hk
  refine (List.perm_ext_iff_of_nodup hg.unnumbered_nodup hg'.unnumbered_nodup).2 ?_
  rintro ⟨u, x, k⟩
  rw [hg.mem_unnumbered, hg'.mem_unnumbered, hkinds]

/-- Entrypoints are registered once each, so they are the same up to their order. -/
theorem Sound.perm_entryUnits (hentries : g.entryUnits = g'.entryUnits) :
    ((CallGraph.entrypoints g).map Node.unit).Perm ((CallGraph.entrypoints g').map Node.unit) := by
  refine (List.perm_ext_iff_of_nodup hg.entryUnits_nodup hg'.entryUnits_nodup).2 fun u => ?_
  rw [List.mem_map, List.mem_map]
  exact Set.ext_iff.1 hentries u

end Nodes

/-! ## A program with a library that calls back -/

/-- The entrypoint draws a shape and prints. Of the two shapes one comes from a library,
    and the class of the other has an initializer there. Printing calls back into the
    application. -/
def gallery : Answers where
  single r :=
    if r = ⟨"app", "main", "()"⟩ ∨ r = ⟨"app", "hook", "()"⟩ ∨ r = ⟨"lib", "print", "()"⟩ then
      some (.named r)
    else none
  overrides r :=
    if r = ⟨"Shape", "area", "()"⟩ then
      [.named ⟨"Circle", "area", "()"⟩, .named ⟨"Square", "area", "()"⟩]
    else []
  isAbstract _ := false
  loader u := if u.ref.owner = "app" ∨ u.ref.owner = "Square" then .application else .extension
  initializer u :=
    if u.ref.owner = "Square" then some (.named ⟨"lib", "setup", "()"⟩) else none
  callSites u :=
    if u.ref.name = "main" then
      [⟨0, ⟨"Shape", "area", "()"⟩, .virtual⟩, ⟨1, ⟨"lib", "print", "()"⟩, .static⟩]
    else if u.ref.name = "print" then [⟨0, ⟨"app", "hook", "()"⟩, .static⟩]
    else []
  wrapper _ _ := none

/-- The gallery mentions six units. -/
theorem gallery_admissible : gallery.Admissible 6 := by
  let all : Finset CodeUnit := {.named ⟨"app", "main", "()"⟩, .named ⟨"app", "hook", "()"⟩,
    .named ⟨"lib", "print", "()"⟩, .named ⟨"Circle", "area", "()"⟩,
    .named ⟨"Square", "area", "()"⟩, .named ⟨"lib", "setup", "()"⟩}
  have hall : ∀ {u}, gallery.Mentions u → u ∈ all := by
    intro u hu
    cases hu with
    | single hu =>
        simp only [gallery, Option.ite_none_right_eq_some, Option.some.injEq] at hu
        rcases hu with ⟨rfl | rfl | rfl, rfl⟩ <;> decide
    | overrides hu =>
        simp only [gallery] at hu
        split at hu
        · simp only [List.mem_cons, List.not_mem_nil, or_false] at hu
          rcases hu with rfl | rfl <;> decide
        · exact absurd hu List.not_mem_nil
    | initializer hu =>
        simp only [gallery, Option.ite_none_right_eq_some, Option.some.injEq] at hu
        rcases hu with ⟨_, rfl⟩
        decide
    | wrapper hu => exact absurd hu (by simp [gallery])
  -- The initializer of the gallery has no other initializer than itself.
  refine Answers.admissible_of_finset all hall (by decide) (by decide) fun hi hj => ?_
  simp only [gallery, Option.ite_none_right_eq_some, Option.some.injEq] at hi hj
  rw [← hi.2, ← hj.2]

/-! ## Another order -/

/-- What the sites of the root call, in the order of the entrypoints. -/
theorem map_target_entrySites (entries : List CodeUnit) :
    (Answers.entrySites entries).map CallSite.target = entries.map CodeUnit.ref := by
  have hentries : entries.map CodeUnit.ref = (entries.zipIdx.map Prod.fst).map CodeUnit.ref := by
    rw [List.zipIdx_map_fst]
  rw [hentries, Answers.entrySites, List.map_map, List.map_map]
  rfl

/-- The outline of a closure does not depend on the order of the entrypoints or on the
    order in which overrides are listed. The numbers of the nodes do, and so does
    everything that is listed by number.

    Closed sets are the same for both orders, so the least one is too, and this is the
    set of units. All else follows from the units and the code, which is why no run is
    compared with another step by step. -/
theorem build_order_irrelevant {h : Hierarchy σ} {h' : Hierarchy σ'} (ha : a.GivenBy h)
    (ha' : a'.GivenBy h') (hok : a.Admissible h.bound) (hok' : a'.Admissible h'.bound)
    (horder : a.Reordered a') (hentries : entries.Perm entries') (only : Bool) (world : σ)
    (world' : σ') (serial serial' : Nat) {life life' : Lifetime}
    (hend : (build h world serial only entries life).2 = none)
    (hend' : (build h' world' serial' only entries' life').2 = none) :
    let g := (build h world serial only entries life).1.graph
    let g' := (build h' world' serial' only entries' life').1.graph
    -- The same units, edges, callees of the root and entrypoints.
    (g.unitsOf .ordinary = g'.unitsOf .ordinary ∧
      g.edgesFrom .ordinary = g'.edgesFrom .ordinary ∧
      g.edgesFrom .fakeRoot = g'.edgesFrom .fakeRoot ∧ g.entryUnits = g'.entryUnits) ∧
    -- The same list of sites for every unit, with the same targets.
    (g.sitesFrom .ordinary = g'.sitesFrom .ordinary ∧
      g.targetsFrom .ordinary = g'.targetsFrom .ordinary) ∧
    -- The nodes are the same but for their numbers, and the entrypoints and the sites of the
    -- root are the same but for their order.
    (g.nodes.map Node.unnumbered).Perm (g'.nodes.map Node.unnumbered) ∧
    ((CallGraph.entrypoints g).map Node.unit).Perm ((CallGraph.entrypoints g').map Node.unit) ∧
    ∀ r r', g.contains r → r.kind = .fakeRoot → g'.contains r' → r'.kind = .fakeRoot →
      ((g.callSites r).map CallSite.target).Perm ((g'.callSites r').map CallSite.target) ∧
      ∀ site ∈ g.callSites r, ∀ site' ∈ g'.callSites r', site.target = site'.target →
        ∀ v, (∃ m ∈ g.targets r site, m.unit = v) ↔ ∃ m ∈ g'.targets r' site', m.unit = v := by
  intro g g'
  rcases reading_build ha hok hend with ⟨hdone, hc⟩
  rcases reading_build ha' hok' hend' with ⟨hdone', hc'⟩
  have hunits : g.unitsOf .ordinary = g'.unitsOf .ordinary := by
    have hleast := hc.isLeast_units hdone hok
    have hleast' := hc'.isLeast_units hdone' hok'
    simp only [← horder.closed_iff hentries] at hleast'
    exact hleast.unique hleast'
  -- The code of an ordinary node is not among the things that were reordered.
  have hcode : ∀ u, a.codeOf entries .ordinary u = a'.codeOf entries' .ordinary u := by
    rcases horder with ⟨_, _, rfl⟩
    exact fun _ => rfl
  have hentry : g.entryUnits = g'.entryUnits := by
    ext v
    rw [hc.mem_entryUnits hdone, hc'.mem_entryUnits hdone']
    exact horder.entry_iff hentries
  have hord : NodeKind.ordinary ≠ .fakeWorldClinit := by simp
  refine ⟨⟨hunits, ?_, ?_, hentry⟩, ⟨?_, ?_⟩, hc.perm_unnumbered hc'.toSound hunits,
    hc.perm_entryUnits hc'.toSound hentry, ?_⟩
  · ext ⟨u, v⟩
    rw [hc.mem_edgesFrom hdone hord, hc'.mem_edgesFrom hdone' hord, hunits, hcode]
    exact and_congr_right fun _ => exists_congr fun site => and_congr_right fun _ =>
      horder.candidate_iff
  · ext ⟨u, v⟩
    rw [hc.mem_edgesFrom_root hdone, hc'.mem_edgesFrom_root hdone', horder.entry_iff hentries]
  · ext ⟨u, sites⟩
    rw [hc.mem_sitesFrom hdone hord, hc'.mem_sitesFrom hdone' hord, hunits, hcode]
  · ext ⟨u, site, v⟩
    rw [hc.mem_targetsFrom hdone hord, hc'.mem_targetsFrom hdone' hord, hunits, hcode,
      horder.candidate_iff]
  · intro r r' hr hroot hr' hroot'
    have hsites := hc.callSites_root hdone hr hroot
    have hsites' := hc'.callSites_root hdone' hr' hroot'
    refine ⟨?_, ?_⟩
    · rw [hsites, hsites', map_target_entrySites, map_target_entrySites]
      exact hentries.map CodeUnit.ref
    · -- What a site of the root invokes depends on its target alone.
      intro site hsite site' hsite' htarget v
      have hk : r.kind ≠ .fakeWorldClinit := by simp [hroot]
      have hk' : r'.kind ≠ .fakeWorldClinit := by simp [hroot']
      rw [hsites] at hsite
      rw [hsites'] at hsite'
      rcases Answers.mem_entrySites hsite with ⟨_, _, _, hspecial⟩
      rcases Answers.mem_entrySites hsite' with ⟨_, _, _, hspecial'⟩
      rw [hc.exists_target_iff hdone hr hk, hc'.exists_target_iff hdone' hr' hk',
        horder.candidate_iff, Answers.code, hroot, Answers.code, hroot', and_iff_right hsite,
        and_iff_right hsite']
      simp only [Answers.Candidate, hspecial, hspecial', htarget]

/-- Both orders are swapped, and the units are found in another order. -/
theorem build_order_irrelevant_gallery :
    let swapped : Answers := { gallery with overrides := fun r => (gallery.overrides r).reverse }
    let main : CodeUnit := .named ⟨"app", "main", "()"⟩
    let hook : CodeUnit := .named ⟨"app", "hook", "()"⟩
    let g := (build (gallery.hierarchy 6) () 0 false [main, hook] .unbounded).1.graph
    let g' := (build (swapped.hierarchy 6) () 1 false [hook, main] .unbounded).1.graph
    let names (g : Graph) := g.nodes.map fun n => n.unit.ref.owner ++ "." ++ n.unit.ref.name
    names g = ["$synthetic.fakeRoot", "$synthetic.fakeWorldClinit", "app.main", "app.hook",
      "Circle.area", "Square.area", "lib.setup", "lib.print"] ∧
    names g' = ["$synthetic.fakeRoot", "$synthetic.fakeWorldClinit", "app.hook", "app.main",
      "Square.area", "lib.setup", "Circle.area", "lib.print"] ∧
    g.unitsOf .ordinary = g'.unitsOf .ordinary ∧
    g.targetsFrom .ordinary = g'.targetsFrom .ordinary := by
  intro swapped main hook g g' names
  have horder : gallery.Reordered swapped := ⟨_, fun r => (List.reverse_perm _).symm, rfl⟩
  have hend : (build (gallery.hierarchy 6) () 0 false [main, hook] .unbounded).2 = none := by
    decide +kernel
  have hend' : (build (swapped.hierarchy 6) () 1 false [hook, main] .unbounded).2 = none := by
    decide +kernel
  have hsame := build_order_irrelevant (gallery.givenBy_hierarchy 6) (swapped.givenBy_hierarchy 6)
    gallery_admissible (horder.admissible gallery_admissible) horder (List.Perm.swap hook main [])
    false () () 0 1 hend hend'
  exact ⟨by decide +kernel, by decide +kernel, hsame.1.1, hsame.2.1.2⟩

/-! ## Application code only -/

/-- The closure of application code is a part of the unrestricted closure, and calls
    only what the application declares. It need not be all of that part: what the
    application reaches only through a library is missing. An initializer is there
    whoever declares it, since relevance is not asked for initializers. -/
theorem build_application_only {h : Hierarchy σ} (ha : a.GivenBy h) (hok : a.Admissible h.bound)
    (entries : List CodeUnit) (world world' : σ) (serial serial' : Nat) {life life' : Lifetime}
    (hend : (build h world serial true entries life).2 = none)
    (hend' : (build h world' serial' false entries life').2 = none) :
    let g := (build h world serial true entries life).1.graph
    let g' := (build h world' serial' false entries life').1.graph
    -- Units, entrypoints, edges and targets are a part.
    (g.unitsOf .ordinary ⊆ g'.unitsOf .ordinary ∧ g.entryUnits ⊆ g'.entryUnits) ∧
    (∀ k, k ≠ .fakeWorldClinit →
      g.edgesFrom k ⊆ g'.edgesFrom k ∧ g.targetsFrom k ⊆ g'.targetsFrom k) ∧
    -- What is called, the application declares.
    (∀ n m, n.kind ≠ .fakeWorldClinit → g.hasEdge n m → h.loader m.unit = .application) ∧
    -- Nodes of the same unit have the same sites, and the targets are those of the
    -- unrestricted graph that the application declares.
    ∀ n n', g.contains n → g'.contains n' → n.unit = n'.unit → n.kind ≠ .fakeWorldClinit →
      g.callSites n = g'.callSites n' ∧
      ∀ site v, (∃ m ∈ g.targets n site, m.unit = v) ↔
        (∃ m ∈ g'.targets n' site, m.unit = v) ∧ h.loader v = .application := by
  intro g g'
  rcases reading_build ha hok hend with ⟨hdone, hc⟩
  rcases reading_build ha hok hend' with ⟨hdone', hc'⟩
  -- A set that is closed without the restriction is closed with it, and the units are least.
  have hunits : g.unitsOf .ordinary ⊆ g'.unitsOf .ordinary :=
    (hc.isLeast_units hdone hok).2 (hc'.closed_units hdone' hok).restrict
  have hkinds : ∀ k, g.unitsOf k ⊆ g'.unitsOf k := by
    intro k
    by_cases hk : k = .ordinary
    · rw [hk]
      exact hunits
    · exact (hc.wellFormed.unitsOf_eq_of_synthetic hc'.wellFormed hk).subset
  have hcandidate : ∀ {u site v}, a.Candidate true u site v → a.Candidate false u site v :=
    fun hv => (Answers.candidate_true_iff.1 hv).1
  refine ⟨⟨hunits, ?_⟩, fun k hk => ⟨?_, ?_⟩, ?_, ?_⟩
  · intro v hv
    rcases (hc.mem_entryUnits hdone).1 hv with ⟨e, he, hsingle, hrel⟩
    exact (hc'.mem_entryUnits hdone').2 ⟨e, he, hsingle, hrel.1, by simp⟩
  · rintro ⟨u, v⟩ huv
    rcases (hc.mem_edgesFrom hdone hk).1 huv with ⟨hu, site, hsite, hv⟩
    exact (hc'.mem_edgesFrom hdone' hk).2 ⟨hkinds k hu, site, hsite, hcandidate hv⟩
  · rintro ⟨u, site, v⟩ huv
    rcases (hc.mem_targetsFrom hdone hk).1 huv with ⟨hu, hsite, hv⟩
    exact (hc'.mem_targetsFrom hdone' hk).2 ⟨hkinds k hu, hsite, hcandidate hv⟩
  · intro n m hk hedge
    have hn := (Graph.hasEdge_iff.1 hedge).1
    rcases (hc.exists_callee_iff hdone hn hk).1 ⟨m, hedge, rfl⟩ with ⟨_, _, hv⟩
    rw [ha.loader]
    exact (Answers.candidate_true_iff.1 hv).2
  · intro n n' hn hn' hunit hk
    -- Both nodes have the same code, since the unit tells the kind.
    have hkind : n.kind = n'.kind := by
      rw [hc.kind_eq hok hn, hc'.kind_eq hok hn', hunit]
    have hk' : n'.kind ≠ .fakeWorldClinit := hkind ▸ hk
    have hcode : a.code entries n = a.code entries n' := by
      rw [a.code_eq_codeOf, a.code_eq_codeOf, hkind, hunit]
    refine ⟨?_, fun site v => ?_⟩
    · rw [hc.callSites_eq hdone hn hk, hc'.callSites_eq hdone' hn' hk', hcode]
    · rw [hc.exists_target_iff hdone hn hk, hc'.exists_target_iff hdone' hn' hk', hcode, hunit,
        Answers.candidate_true_iff, ha.loader, and_assoc]

/-- The application reaches one shape, and the initializer of its class although a library
    declares it. What the library calls is not found. -/
theorem build_application_only_gallery :
    let main : CodeUnit := .named ⟨"app", "main", "()"⟩
    let g := (build (gallery.hierarchy 6) () 0 true [main] .unbounded).1.graph
    let g' := (build (gallery.hierarchy 6) () 0 false [main] .unbounded).1.graph
    let names (g : Graph) := g.nodes.map fun n => n.unit.ref.owner ++ "." ++ n.unit.ref.name
    names g = ["$synthetic.fakeRoot", "$synthetic.fakeWorldClinit", "app.main", "Square.area",
      "lib.setup"] ∧
    names g' = ["$synthetic.fakeRoot", "$synthetic.fakeWorldClinit", "app.main", "Circle.area",
      "Square.area", "lib.setup", "lib.print", "app.hook"] ∧
    g.unitsOf .ordinary ⊆ g'.unitsOf .ordinary ∧
    let caller : Node := ⟨0, 2, main, .everywhere, .ordinary⟩
    g.contains caller ∧ g'.contains caller ∧
    ∀ site v, (∃ m ∈ g.targets caller site, m.unit = v) ↔
      (∃ m ∈ g'.targets caller site, m.unit = v) ∧ gallery.loader v = .application := by
  intro main g g' names
  have hend : (build (gallery.hierarchy 6) () 0 true [main] .unbounded).2 = none := by
    decide +kernel
  have hend' : (build (gallery.hierarchy 6) () 0 false [main] .unbounded).2 = none := by
    decide +kernel
  have hpart := build_application_only (gallery.givenBy_hierarchy 6) gallery_admissible [main] () ()
    0 0 hend hend'
  refine ⟨by decide +kernel, by decide +kernel, hpart.1.1, ?_⟩
  intro caller
  -- Both graphs number the caller alike, so one node can be asked about in both.
  have hcaller : g.contains caller := by decide +kernel
  have hcaller' : g'.contains caller := by decide +kernel
  have htargets := (hpart.2.2.2 caller caller hcaller hcaller' rfl (by simp [caller])).2
  exact ⟨hcaller, hcaller', htargets⟩

end Closure

end CallAtlas
