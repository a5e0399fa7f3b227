import CallAtlas.Closure.Build
import CallAtlas.Closure.Described
import Mathlib.Data.Set.Card

/-!
# What a Closure Has to Contain

The closure asks a hierarchy in an order of its own, keeps what it was told, and
makes nodes as it goes. What it should end with can be said without any of this, as
long as the hierarchy gives the same answer to the same question whenever it is
asked. Such a hierarchy is a family of functions, here `Answers`.

Over these functions stands the specification: which units a site may invoke, and
which sets of units are closed under being called from an entrypoint, being called
from a member, and being the initializer of a member's class. The closure is to find
the least closed set. Nothing here mentions nodes, worklists or caches, apart from
the last definition, which says whose sites a node has.

## Main definitions

* `Answers`: The answers of a hierarchy that remembers nothing.
* `Answers.GivenBy`: A hierarchy answers so, whatever was asked before.
* `Answers.hierarchy`: The hierarchy that gives the answers and remembers nothing.
* `Answers.Admissible`: Finitely many units, none synthetic, and no chains of
  initializers.
* `Answers.Candidate`: A unit that a site may invoke.
* `Answers.Closed`: A set of units that calls do not leave.
* `Answers.code`: The sites that the code of a node contains.
* `Answers.ofHierarchy`: The answers of a hierarchy without a state.

## Theorems

* `Answers.candidate_iff_mem_found`: The candidates of a site that calls.
* `Answers.Candidate.mentions`: Candidates are units that the hierarchy mentions.
* `Answers.GivenBy.relevant_iff`: The test for relevance tests relevance.
* `Answers.ncard_mentions_ofJson`: A described hierarchy keeps its bound.
-/

namespace CallAtlas

/-- The answers of a hierarchy that remembers nothing. Sites and function objects depend
    on a node through its unit alone. -/
structure Answers where
  single : MethodRef → Option CodeUnit
  overrides : MethodRef → List CodeUnit
  isAbstract : CodeUnit → Bool
  loader : CodeUnit → Loader
  initializer : CodeUnit → Option CodeUnit
  callSites : CodeUnit → List CallSite
  wrapper : CodeUnit → CallSite → Option CodeUnit

namespace Answers

/-- A hierarchy answers so in every state, whatever was asked before. -/
structure GivenBy {σ : Type} (a : Answers) (h : Hierarchy σ) : Prop where
  single : ∀ r w, ((h.single r).run w).1 = a.single r
  overrides : ∀ r w, ((h.overrides r).run w).1 = a.overrides r
  isAbstract : ∀ u, h.isAbstract u = a.isAbstract u
  loader : ∀ u, h.loader u = a.loader u
  initializer : ∀ u w, ((h.initializer u).run w).1 = a.initializer u
  callSites : ∀ n w, ((h.callSites n).run w).1 = a.callSites n.unit
  wrapper : ∀ n s w, ((h.wrapper n s).run w).1 = a.wrapper n.unit s

/-- The hierarchy that gives the answers and remembers nothing. -/
def hierarchy (a : Answers) (bound : Nat) : Hierarchy Unit where
  bound := bound
  single r := pure (a.single r)
  overrides r := pure (a.overrides r)
  isAbstract := a.isAbstract
  loader := a.loader
  initializer u := pure (a.initializer u)
  callSites n := pure (a.callSites n.unit)
  wrapper n s := pure (a.wrapper n.unit s)

theorem givenBy_hierarchy (a : Answers) (bound : Nat) : a.GivenBy (a.hierarchy bound) :=
  ⟨fun _ _ => rfl, fun _ _ => rfl, fun _ => rfl, fun _ => rfl, fun _ _ => rfl, fun _ _ => rfl,
    fun _ _ _ => rfl⟩

/-- A unit that occurs in an answer. -/
inductive Mentions (a : Answers) : CodeUnit → Prop
  | single {r : MethodRef} {u : CodeUnit} : a.single r = some u → Mentions a u
  | overrides {r : MethodRef} {u : CodeUnit} : u ∈ a.overrides r → Mentions a u
  | initializer {v u : CodeUnit} : a.initializer v = some u → Mentions a u
  | wrapper {v : CodeUnit} {s : CallSite} {u : CodeUnit} : a.wrapper v s = some u → Mentions a u

/-- The answers mention at most `bound` units, none of them synthetic, and the
    initializer of an initializer is itself or absent. -/
structure Admissible (a : Answers) (bound : Nat) : Prop where
  finite : {u | a.Mentions u}.Finite
  ncard_le : {u | a.Mentions u}.ncard ≤ bound
  not_synthetic : ∀ {u}, a.Mentions u → u ≠ .fakeRoot ∧ u ≠ .fakeWorldClinit
  initializer_of_initializer : ∀ {u i j}, a.initializer u = some i →
    a.initializer i = some j → j = i

/-- Answers are admissible if a finite set has all units that they mention. This is the
    way to show it of a hierarchy that is written down. -/
theorem admissible_of_finset {a : Answers} {bound : Nat} (all : Finset CodeUnit)
    (hall : ∀ {u}, a.Mentions u → u ∈ all) (hcard : all.card ≤ bound)
    (hsynthetic : .fakeRoot ∉ all ∧ .fakeWorldClinit ∉ all)
    (hchain : ∀ {u i j}, a.initializer u = some i → a.initializer i = some j → j = i) :
    a.Admissible bound := by
  have hsub : {u | a.Mentions u} ⊆ (all : Set CodeUnit) := fun u hu => hall hu
  refine ⟨all.finite_toSet.subset hsub, ?_, ?_, hchain⟩
  · -- The units mentioned are counted by comparison with the finite set.
    calc {u | a.Mentions u}.ncard ≤ (all : Set CodeUnit).ncard :=
          Set.ncard_le_ncard hsub all.finite_toSet
      _ = all.card := Set.ncard_coe_finset all
      _ ≤ bound := hcard
  · intro u hu
    refine ⟨?_, ?_⟩
    · rintro rfl
      exact hsynthetic.1 (hall hu)
    · rintro rfl
      exact hsynthetic.2 (hall hu)

/-! ## What a site may invoke -/

/-- A unit that may become a node because it is called. -/
def Relevant (a : Answers) (applicationOnly : Bool) (u : CodeUnit) : Prop :=
  a.isAbstract u = false ∧ (applicationOnly = true → a.loader u = .application)

/-- A unit that a site in the code of another may invoke: the function object that the
    site makes, an override of what it names, or what it names. -/
def Candidate (a : Answers) (applicationOnly : Bool) (u : CodeUnit) (site : CallSite)
    (v : CodeUnit) : Prop :=
  a.Relevant applicationOnly v ∧
    match site.kind with
    | .dynamic => a.wrapper u site = some v
    | .virtual | .interface => v ∈ a.overrides site.target
    | .static | .special | .unnamed _ => a.single site.target = some v

/-- A set of units that calls from the entrypoints and from its members do not leave,
    and that has the initializers of its members' classes. -/
structure Closed (a : Answers) (applicationOnly : Bool) (entrypoints : List CodeUnit)
    (units : Set CodeUnit) : Prop where
  entry : ∀ e ∈ entrypoints, ∀ v, a.single e.ref = some v → a.Relevant applicationOnly v → v ∈ units
  call : ∀ u ∈ units, ∀ site ∈ a.callSites u, ∀ v, a.Candidate applicationOnly u site v → v ∈ units
  initializer : ∀ u ∈ units, ∀ v, a.initializer u = some v → v ∈ units

/-- The units found for a site that calls, relevant or not. -/
def found (a : Answers) (target : MethodRef) (kind : Dispatch) : List CodeUnit :=
  if kind.isOverriding then a.overrides target else (a.single target).toList

/-- For a site that calls, the candidates are those of the units found for it that are
    relevant. The builder finds first and filters afterwards. -/
theorem candidate_iff_mem_found {a : Answers} {applicationOnly : Bool} {u : CodeUnit}
    {site : CallSite} {v : CodeUnit} (hk : site.kind ≠ .dynamic) :
    a.Candidate applicationOnly u site v ↔
      v ∈ a.found site.target site.kind ∧ a.Relevant applicationOnly v := by
  unfold Candidate found
  rw [and_comm]
  cases hkind : site.kind with
  | dynamic => exact absurd hkind hk
  | virtual => rfl
  | interface => rfl
  | static => simp [Dispatch.isOverriding]
  | special => simp [Dispatch.isOverriding]
  | unnamed code => simp [Dispatch.isOverriding]

theorem candidate_iff_of_dynamic {a : Answers} {applicationOnly : Bool} {u : CodeUnit}
    {site : CallSite} {v : CodeUnit} (hk : site.kind = .dynamic) :
    a.Candidate applicationOnly u site v ↔
      v ∈ (a.wrapper u site).toList ∧ a.Relevant applicationOnly v := by
  rw [Candidate, hk, Option.mem_toList, and_comm]

/-- Candidates are units that the hierarchy mentions. -/
theorem Candidate.mentions {a : Answers} {applicationOnly : Bool} {u : CodeUnit} {site : CallSite}
    {v : CodeUnit} (h : a.Candidate applicationOnly u site v) : a.Mentions v := by
  by_cases hk : site.kind = .dynamic
  · have hv := ((candidate_iff_of_dynamic hk).1 h).1
    rw [Option.mem_toList] at hv
    exact .wrapper hv
  · have hv := ((candidate_iff_mem_found hk).1 h).1
    unfold found at hv
    split at hv
    · exact .overrides hv
    · rw [Option.mem_toList] at hv
      exact .single hv

/-- The test for relevance tests relevance. -/
theorem GivenBy.relevant_iff {σ : Type} {a : Answers} {h : Hierarchy σ} (ha : a.GivenBy h)
    {applicationOnly : Bool} {u : CodeUnit} :
    Closure.relevant h applicationOnly u = true ↔ a.Relevant applicationOnly u := by
  rw [Closure.relevant, Relevant, ha.isAbstract, ha.loader]
  cases applicationOnly <;> simp

/-! ## Entrypoints as sites of the root -/

/-- The call sites of the fake root: entrypoint `i` at program counter `i`. -/
def entrySites (entrypoints : List CodeUnit) : List CallSite :=
  entrypoints.zipIdx.map fun (e, i) => { pc := i, target := e.ref, kind := .special }

/-- Entrypoints may be listed twice and still make two sites, since each has its position. -/
theorem entrySites_nodup (entrypoints : List CodeUnit) : (entrySites entrypoints).Nodup := by
  -- Distinct positions make distinct sites.
  have hpcs : ((entrySites entrypoints).map fun s => s.pc) =
      (List.range' 0 entrypoints.length).map fun (i : Nat) => (i : Int) := by
    rw [entrySites, List.map_map, ← List.zipIdx_map_snd 0 entrypoints, List.map_map]
    rfl
  refine List.Nodup.of_map (fun s => s.pc) ?_
  rw [hpcs]
  exact (List.nodup_range' (s := 0)).map fun i j hij => Int.ofNat_inj.1 hij

theorem mem_entrySites {entrypoints : List CodeUnit} {site : CallSite}
    (h : site ∈ entrySites entrypoints) :
    ∃ e ∈ entrypoints, site.target = e.ref ∧ site.kind = .special := by
  rcases List.mem_map.1 h with ⟨⟨e, i⟩, hei, rfl⟩
  exact ⟨e, List.fst_mem_of_mem_zipIdx hei, rfl, rfl⟩

theorem exists_entrySite {entrypoints : List CodeUnit} {e : CodeUnit} (h : e ∈ entrypoints) :
    ∃ site ∈ entrySites entrypoints, site.target = e.ref ∧ site.kind = .special := by
  rcases List.mem_iff_getElem?.1 h with ⟨i, hi⟩
  refine ⟨⟨i, e.ref, .special⟩, List.mem_map.2 ⟨(e, i), ?_, rfl⟩, rfl, rfl⟩
  rw [List.mem_zipIdx_iff_getElem?]
  exact hi

/-- The sites that the code of a node contains. The root has the entrypoints, and the
    calls of the other synthetic node are not code. -/
def code (a : Answers) (entrypoints : List CodeUnit) (n : Node) : List CallSite :=
  match n.kind with
  | .fakeRoot => entrySites entrypoints
  | .fakeWorldClinit => []
  | .ordinary => a.callSites n.unit

/-! ## Described hierarchies -/

/-- The answers of a hierarchy without a state. -/
def ofHierarchy (h : Hierarchy Unit) : Answers where
  single r := ((h.single r).run ()).1
  overrides r := ((h.overrides r).run ()).1
  isAbstract := h.isAbstract
  loader := h.loader
  initializer u := ((h.initializer u).run ()).1
  callSites u := ((h.callSites ⟨0, 0, u, .everywhere, .ordinary⟩).run ()).1
  wrapper u s := ((h.wrapper ⟨0, 0, u, .everywhere, .ordinary⟩ s).run ()).1

/-- A described hierarchy has no state, so its answers do not depend on what was asked. -/
theorem givenBy_ofJson (j : Json) : (ofHierarchy (.ofJson j)).GivenBy (.ofJson j) :=
  ⟨fun _ _ => rfl, fun _ _ => rfl, fun _ => rfl, fun _ => rfl, fun _ _ => rfl, fun _ _ => rfl,
    fun _ _ _ => rfl⟩

/-- A described hierarchy keeps its bound. The bound is the number of references in its
    document, and every answer is one of these references. A reference may be listed
    several times, so the bound need not be reached. -/
theorem ncard_mentions_ofJson (j : Json) :
    {u | (ofHierarchy (.ofJson j)).Mentions u}.Finite ∧
      {u | (ofHierarchy (.ofJson j)).Mentions u}.ncard ≤ (Hierarchy.ofJson j).bound := by
  let methods := (j.listAt "methods").map DescribedMethod.ofJson
  let overrides := (j.listAt "overrides").map fun o =>
    (MethodRef.ofJson (o.field "target"), (o.listAt "impls").map MethodRef.ofJson)
  let initializers := (j.field "clinits").members.map fun m => (m.1, MethodRef.ofJson m.2)
  let wrappers := (j.listAt "wrappers").map fun o =>
    (MethodRef.ofJson (o.field "target"), MethodRef.ofJson (o.field "impl"))
  let refs := methods.map (·.ref) ++ overrides.flatMap (·.2) ++ initializers.map (·.2) ++
    wrappers.map (·.2)
  -- Every answer is made of references that the document lists.
  have hmem : ∀ {u}, (ofHierarchy (.ofJson j)).Mentions u → u ∈ refs.map CodeUnit.named := by
    intro u hu
    rw [List.mem_map]
    cases hu with
    | @single r _ hu =>
        change (methods.find? (·.ref = r)).map (fun m => CodeUnit.named m.ref) = some u at hu
        rcases Option.map_eq_some_iff.1 hu with ⟨m, hm, rfl⟩
        refine ⟨m.ref, ?_, rfl⟩
        simp only [refs, List.mem_append]
        exact Or.inl (Or.inl (Or.inl (List.mem_map_of_mem (List.mem_of_find?_eq_some hm))))
    | @overrides r _ hu =>
        change u ∈ (overrides.filter (·.1 = r)).flatMap fun o => o.2.map .named at hu
        rcases List.mem_flatMap.1 hu with ⟨o, ho, hu⟩
        rcases List.mem_map.1 hu with ⟨ref, href, rfl⟩
        refine ⟨ref, ?_, rfl⟩
        simp only [refs, List.mem_append]
        exact Or.inl (Or.inl (Or.inr (List.mem_flatMap.2 ⟨o, List.mem_of_mem_filter ho, href⟩)))
    | @initializer v _ hu =>
        change (initializers.reverse.find? (·.1 = v.ref.owner)).map
          (fun c => CodeUnit.named c.2) = some u at hu
        rcases Option.map_eq_some_iff.1 hu with ⟨c, hc, rfl⟩
        refine ⟨c.2, ?_, rfl⟩
        simp only [refs, List.mem_append]
        have hc := List.mem_reverse.1 (List.mem_of_find?_eq_some hc)
        exact Or.inl (Or.inr (List.mem_map_of_mem hc))
    | @wrapper _ s _ hu =>
        change (wrappers.find? (·.1 = s.target)).map (fun o => CodeUnit.named o.2) = some u at hu
        rcases Option.map_eq_some_iff.1 hu with ⟨o, ho, rfl⟩
        refine ⟨o.2, ?_, rfl⟩
        simp only [refs, List.mem_append]
        exact Or.inr (List.mem_map_of_mem (List.mem_of_find?_eq_some ho))
  have hsub : {u | (ofHierarchy (.ofJson j)).Mentions u} ⊆
      ((refs.map CodeUnit.named).toFinset : Set CodeUnit) := by
    intro u hu
    rw [List.coe_toFinset]
    exact hmem hu
  refine ⟨(refs.map CodeUnit.named).toFinset.finite_toSet.subset hsub, ?_⟩
  calc {u | (ofHierarchy (.ofJson j)).Mentions u}.ncard
      ≤ ((refs.map CodeUnit.named).toFinset : Set CodeUnit).ncard :=
        Set.ncard_le_ncard hsub (Finset.finite_toSet _)
    _ = (refs.map CodeUnit.named).toFinset.card := Set.ncard_coe_finset _
    _ ≤ (refs.map CodeUnit.named).length := List.toFinset_card_le _
    _ = (Hierarchy.ofJson j).bound := by
        simp only [refs, List.length_map, List.length_append, List.length_flatMap]
        rfl

end Answers

end CallAtlas
