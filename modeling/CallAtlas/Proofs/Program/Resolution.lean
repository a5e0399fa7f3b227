import CallAtlas.Program.World
import CallAtlas.Proofs.Closure.Knowledge
import CallAtlas.Proofs.Program.References
import CallAtlas.Proofs.Snapshot.RoundTrip

/-!
# References Lead Back to Functions

A program answers the questions of the closure from an index that grows while the closure
runs. Call sites are made from the references of their callees, and the callee is looked for
by its reference when the site is visited, which may be much later. A graph that is stored
keeps nothing of a function but its reference.

All three are sound as long as references tell functions apart, and `References` says when
they do. This module carries that over to the hierarchy. Units that a program has handed out
are functions of its index with the references they have there, and stay so: a program learns
in the sense of `Knowledge`. So the nodes of a graph are told apart by their references, and
no two of them are one when the graph is rebuilt.

Where labels fail to tell functions apart a function may lose its reference to another one,
and with it its calls and its node. Three functions that look alike down to their labels are
enough.

## Main definitions

* `World.Knows`: A unit is a function of the index.
* `World.Tidy`: What was found so far can be known.
* `World.Learnt`: What follows by asking a question.

## Theorems

* `World.Tidy.unit`, `World.Tidy.units`: The units of functions.
* `World.Tidy.readSites`: The sites of a function.
* `Program.hierarchy_learns`: A program learns.
* `Program.storable_closureOf`: Distinct references tell the nodes of a graph apart.
* `Program.single_siteTarget`: A call site leads to the callee that it was made from.
* `Program.references_resolve_iff`: When references lead back to their functions.
* `Program.alike_functions_merge`: A function that is lost to one that looks like it.
-/

namespace CallAtlas

namespace FunctionIndex

/-- The unit of a function has its reference. -/
theorem unit_of_find? {p : Program} {ix : FunctionIndex} {f : Nat} {ref : MethodRef}
    (h : ix.refs.find? f = some ref) : ix.unit p f = .function f ref (p.function f).label := by
  rw [unit, h]
  rfl

end FunctionIndex

/-! ## What a program has found -/

namespace World

variable {p : Program} {w w' w'' : World}

/-- A unit is a function of the index with the reference that it has there. -/
def Knows (p : Program) (w : World) (u : CodeUnit) : Prop :=
  ∃ f ref, w.index.refs.find? f = some ref ∧ u = .function f ref (p.function f).label

/-- Functions were indexed one by one, units that were found are known, and sites have
    kinds with names. -/
structure Tidy (p : Program) (w : World) : Prop where
  indexed : ∃ fs : List Nat, w.index = fs.foldl (FunctionIndex.add p) p.startIndex
  overridden : ∀ {ref us}, w.overridden.find? ref = some us → ∀ u ∈ us, w.Knows p u
  sites : ∀ {f ss}, w.sites.find? f = some ss → ∀ s ∈ ss, s.kind ∈ Dispatch.named

/-- What follows by asking a question is in order too, and nothing was taken back. -/
structure Learnt (p : Program) (w w' : World) : Prop where
  tidy : Tidy p w'
  known : ∀ u, w.Knows p u → w'.Knows p u

theorem Learnt.trans (h₁ : Learnt p w w') (h₂ : Learnt p w' w'') : Learnt p w w'' :=
  ⟨h₂.tidy, fun u hu => h₂.known u (h₁.known u hu)⟩

/-- At the start only the listed functions are indexed, and nothing was found. -/
theorem tidy_start (p : Program) : Tidy p (start p) := by
  refine ⟨⟨[], rfl⟩, ?_, ?_⟩
  · intro ref us h
    cases h
  · intro f ss h
    cases h

namespace Tidy

theorem refl (hw : Tidy p w) : Learnt p w w := ⟨hw, fun _ hu => hu⟩

theorem sound (hw : Tidy p w) : w.index.Sound := by
  rcases hw.indexed with ⟨fs, hfs⟩
  rw [hfs]
  exact (FunctionIndex.Sound.empty.foldl_add p p.listed).foldl_add p fs

/-- The unit of a function is known once the function is indexed. Units that were known
    before stay so, because references stay. -/
theorem unit (hw : Tidy p w) (f : Nat) :
    Learnt p w ((World.unit p f).run w).2 ∧
      Knows p ((World.unit p f).run w).2 ((World.unit p f).run w).1 := by
  have hkept : ∀ u, w.Knows p u → Knows p { w with index := w.index.add p f } u := by
    rintro u ⟨g, ref, hg, rfl⟩
    exact ⟨g, ref, FunctionIndex.find?_refs_add hg f, rfl⟩
  refine ⟨⟨⟨?_, fun hus u hu => hkept u (hw.overridden hus u hu), hw.sites⟩, hkept⟩, ?_⟩
  · rcases hw.indexed with ⟨fs, hfs⟩
    refine ⟨fs ++ [f], ?_⟩
    rw [List.foldl_append, ← hfs]
    rfl
  · rcases Option.isSome_iff_exists.1 (w.index.contains_refs_add p f) with ⟨ref, href⟩
    exact ⟨f, ref, href, FunctionIndex.unit_of_find? href⟩

/-- Units are known after all of them were asked for, the first of them too. -/
theorem units : ∀ (fs : List Nat) {w : World}, Tidy p w →
    Learnt p w ((World.units p fs).run w).2 ∧
      ∀ u ∈ ((World.units p fs).run w).1, Knows p ((World.units p fs).run w).2 u := by
  intro fs
  induction fs with
  | nil => exact fun hw => ⟨hw.refl, fun u hu => absurd hu List.not_mem_nil⟩
  | cons f rest ih =>
      intro w hw
      rcases hw.unit f with ⟨hfirst, hknown⟩
      rcases ih hfirst.tidy with ⟨hrest, hall⟩
      refine ⟨hfirst.trans hrest, fun u hu => ?_⟩
      rcases List.mem_cons.1 hu with rfl | hu
      · exact hrest.known _ hknown
      · exact hall u hu

/-! ## Sites -/

/-- What a call leads to may have to be indexed, and the kind of the site has a name. -/
theorem siteTarget (hw : Tidy p w) (o : Operation) :
    Learnt p w ((World.siteTarget p o).run w).2 ∧
      ((World.siteTarget p o).run w).1.2 ∈ Dispatch.named := by
  -- What targets stand for is nothing that a unit could depend on.
  have hsame : ∀ interfaceTargets valueTargets,
      Learnt p w { w with interfaceTargets, valueTargets } :=
    fun _ _ => ⟨⟨hw.indexed, hw.overridden, hw.sites⟩, fun _ hu => hu⟩
  cases o with
  | makeClosure f => exact ⟨(hw.unit f).1, (by decide : Dispatch.dynamic ∈ Dispatch.named)⟩
  | callStatic f =>
      refine ⟨(hw.unit f).1, ?_⟩
      change (if (p.function f).receiver.isSome then Dispatch.special else .static) ∈ Dispatch.named
      split
      · decide
      · decide
  | callBuiltin => exact ⟨hw.refl, (by decide : Dispatch.static ∈ Dispatch.named)⟩
  | callInterface m receiver =>
      exact ⟨hsame _ _, (by decide : Dispatch.interface ∈ Dispatch.named)⟩
  | callValue signature signatureClass value =>
      exact ⟨hsame _ _, (by decide : Dispatch.virtual ∈ Dispatch.named)⟩

/-- Reading instructions gives sites whose kinds have names. -/
theorem readSites : ∀ (is : List (Instruction × Nat)) (pc : Nat) {w : World}, Tidy p w →
    Learnt p w ((World.readSites p pc is).run w).2 ∧
      ∀ s ∈ ((World.readSites p pc is).run w).1, s.kind ∈ Dispatch.named := by
  intro is
  induction is with
  | nil => exact fun _ _ hw => ⟨hw.refl, fun s hs => absurd hs List.not_mem_nil⟩
  | cons i rest ih =>
      intro pc w hw
      rcases hw.siteTarget i.1.operation with ⟨hfirst, hkind⟩
      rcases ih (pc + 1) hfirst.tidy with ⟨hrest, hall⟩
      refine ⟨hfirst.trans hrest, fun s hs => ?_⟩
      rcases List.mem_cons.1 hs with rfl | hs
      · exact hkind
      · exact hall s hs

/-- The sites of a function are read once. A second time they are what was read. -/
theorem callSites (hw : Tidy p w) (f : Nat) :
    Learnt p w ((World.callSites p f).run w).2 ∧
      ∀ s ∈ ((World.callSites p f).run w).1, s.kind ∈ Dispatch.named := by
  cases hfind : w.sites.find? f with
  | some ss =>
      have hrun : (World.callSites p f).run w = (ss, w) := by
        simp only [World.callSites, StateT.run_bind, StateT.run_get, pure_bind, hfind]
        rfl
      rw [hrun]
      exact ⟨hw.refl, hw.sites hfind⟩
  | none =>
      -- The sites are read and then kept, so the new entry has what was read just now.
      rcases hread : (World.readSites p 0 (p.siteInstructions f)).run w with ⟨ss, w'⟩
      have hrun : (World.callSites p f).run w =
          (ss, { w' with sites := w'.sites.insert f ss }) := by
        simp only [World.callSites, StateT.run_bind, StateT.run_get, pure_bind, hfind, hread]
        rfl
      have hsites := hw.readSites (p.siteInstructions f) 0
      rw [hread] at hsites
      rw [hrun]
      refine ⟨⟨⟨hsites.1.tidy.indexed, hsites.1.tidy.overridden, ?_⟩, hsites.1.known⟩, hsites.2⟩
      intro g gs hgs
      rw [Table.find?_insert] at hgs
      split at hgs
      · cases hgs
        exact hsites.2
      · exact hsites.1.tidy.sites hgs

/-! ## Units -/

/-- A reference leads to its owner, which is known. Nothing changes by asking. -/
theorem single (hw : Tidy p w) (ref : MethodRef) :
    ((World.single p ref).run w).2 = w ∧
      ∀ u, ((World.single p ref).run w).1 = some u → w.Knows p u := by
  refine ⟨rfl, fun u hu => ?_⟩
  rcases Option.map_eq_some_iff.1 hu with ⟨f, hf, rfl⟩
  have href := hw.sound.owner hf
  exact ⟨f, ref, href, FunctionIndex.unit_of_find? href⟩

/-- The candidates of a call are collected once. All of them are known by then, and
    remain so as long as they are kept. -/
theorem overrides (hw : Tidy p w) (ref : MethodRef) :
    Learnt p w ((World.overrides p ref).run w).2 ∧
      ∀ u ∈ ((World.overrides p ref).run w).1, Knows p ((World.overrides p ref).run w).2 u := by
  cases hfind : w.overridden.find? ref with
  | some us =>
      have hrun : (World.overrides p ref).run w = (us, w) := by
        simp only [World.overrides, StateT.run_bind, StateT.run_get, pure_bind, hfind]
        rfl
      rw [hrun]
      exact ⟨hw.refl, hw.overridden hfind⟩
  | none =>
      -- The candidates are collected and then kept, so the new entry has what was found just
      -- now.
      rcases hunits : (World.units p (p.inLabelOrder (candidates p w ref))).run w with ⟨us, w'⟩
      have hrun : (World.overrides p ref).run w =
          (us, { w' with overridden := w'.overridden.insert ref us }) := by
        simp only [World.overrides, StateT.run_bind, StateT.run_get, pure_bind, hfind, hunits]
        rfl
      have hfound := hw.units (p.inLabelOrder (candidates p w ref))
      rw [hunits] at hfound
      rw [hrun]
      refine ⟨⟨⟨hfound.1.tidy.indexed, ?_, hfound.1.tidy.sites⟩, hfound.1.known⟩, hfound.2⟩
      intro key vs hvs
      rw [Table.find?_insert] at hvs
      split at hvs
      · cases hvs
        exact hfound.2
      · exact hfound.1.tidy.overridden hvs

theorem someUnit (hw : Tidy p w) (f : Nat) :
    Learnt p w ((some <$> World.unit p f).run w).2 ∧
      ∀ u ∈ ((some <$> World.unit p f).run w).1.toList,
        Knows p ((some <$> World.unit p f).run w).2 u := by
  refine ⟨(hw.unit f).1, fun u hu => ?_⟩
  rw [List.mem_singleton.1 hu]
  exact (hw.unit f).2

theorem noUnit (hw : Tidy p w) :
    Learnt p w ((pure none : StateM World (Option CodeUnit)).run w).2 ∧
      ∀ u ∈ ((pure none : StateM World (Option CodeUnit)).run w).1.toList, w.Knows p u :=
  ⟨hw.refl, fun _ hu => absurd hu List.not_mem_nil⟩

/-- The initializer of a class is known. -/
theorem initializer (hw : Tidy p w) (v : CodeUnit) :
    Learnt p w ((World.initializer p v).run w).2 ∧
      ∀ u ∈ ((World.initializer p v).run w).1.toList,
        Knows p ((World.initializer p v).run w).2 u := by
  unfold World.initializer
  split
  · split
    · exact hw.someUnit _
    · exact hw.noUnit
  · exact hw.noUnit

/-- What a function object wraps is known. -/
theorem wrapper (hw : Tidy p w) (f : Nat) (pc : Int) :
    Learnt p w ((World.wrapper p f pc).run w).2 ∧
      ∀ u ∈ ((World.wrapper p f pc).run w).1.toList,
        Knows p ((World.wrapper p f pc).run w).2 u := by
  unfold World.wrapper
  split
  · exact hw.someUnit _
  · exact hw.noUnit

end Tidy

end World

namespace Program

variable {p : Program}

/-- A program learns: what it has found it knows, and nothing is taken back. The closure
    is built with a hierarchy, of which it knows no more than this, so what it
    guarantees for those that learn holds for programs. -/
theorem hierarchy_learns (p : Program) (project : Project) :
    (p.hierarchy project).Learns (World.Tidy p) (World.Knows p) where
  single ref w hw := ⟨hw, fun _ hu => hu, fun u hu => (hw.single ref).2 u (Option.mem_toList.1 hu)⟩
  overrides ref w hw :=
    ⟨(hw.overrides ref).1.tidy, (hw.overrides ref).1.known, (hw.overrides ref).2⟩
  initializer v w hw :=
    ⟨(hw.initializer v).1.tidy, (hw.initializer v).1.known, (hw.initializer v).2⟩
  -- A node without a function has nothing to be asked about.
  wrapper n site w hw := by
    simp only [hierarchy]
    cases n.unit.function? with
    | none => exact ⟨hw, fun _ hu => hu, fun _ hu => absurd hu List.not_mem_nil⟩
    | some f =>
        have hfound := hw.wrapper f site.pc
        exact ⟨hfound.1.tidy, hfound.1.known, hfound.2⟩
  callSites n w hw := by
    simp only [hierarchy]
    cases n.unit.function? with
    | none => exact ⟨hw, fun _ hu => hu, fun _ hu => absurd hu List.not_mem_nil⟩
    | some f =>
        have hread := hw.callSites f
        exact ⟨hread.1.tidy, hread.1.known, fun _ hu => absurd hu List.not_mem_nil⟩
  named n w hw := by
    simp only [hierarchy]
    cases n.unit.function? with
    | none => exact fun _ hs => absurd hs List.not_mem_nil
    | some f => exact (hw.callSites f).2

/-! ## Graphs -/

/-- Units that are known and have the same reference are one, if references are distinct. -/
theorem eq_of_ref_eq {w : World} (hdistinct : w.index.Distinct) {u v : CodeUnit}
    (hu : w.Knows p u) (hv : w.Knows p v) (href : u.ref = v.ref) : u = v := by
  rcases hu with ⟨f, ref, hf, rfl⟩
  rcases hv with ⟨g, ref', hg, rfl⟩
  have hsame : ref = ref' := href
  subst hsame
  rw [hdistinct f g ref hf hg]

theorem informed_closureOf (p : Program) (project : Project) (starts : List Nat) (serial : Nat)
    (only : Bool) (life : Lifetime) :
    (p.closureOf project starts serial only life).1.Informed (World.Tidy p) (World.Knows p) :=
  (Closure.informed_build (p.hierarchy_learns project)
    ((World.tidy_start p).units starts).1.tidy serial only _ life).informed

/-- The graph of a closure of a program is in order. -/
theorem orderly_closureOf (p : Program) (project : Project) (starts : List Nat) (serial : Nat)
    (only : Bool) (life : Lifetime) :
    Closure.Orderly (p.hierarchy project) none
      (p.closureOf project starts serial only life).1.bare := by
  let entered := (World.units p starts).run (World.start p)
  rcases Closure.exists_run_eq_advance (p.hierarchy project) only ((p.hierarchy project).bound + 1)
    life (Closure.start entered.2 serial entered.1) with ⟨k, hk⟩
  have hclosure : (p.closureOf project starts serial only life).1 =
      Closure.advance (p.hierarchy project) only k (Closure.start entered.2 serial entered.1) := hk
  rw [hclosure]
  exact ((Closure.orderly_start _ _ serial _).advance (Closure.cached_start _ _ serial _) only k).1

/-- Distinct references tell the nodes of a graph apart. Ordinary nodes are functions,
    so their references are distinct, and none of them may pass for one of the two
    roots. -/
theorem storable_closureOf (p : Program) (project : Project) (starts : List Nat) (serial : Nat)
    (only : Bool) (life : Lifetime) :
    let c := (p.closureOf project starts serial only life).1
    c.world.index.Distinct →
    (∀ f ref, c.world.index.refs.find? f = some ref →
      ref ≠ CodeUnit.fakeRoot.ref ∧ ref ≠ CodeUnit.fakeWorldClinit.ref) →
    CallGraph.Storable c.graph := by
  intro c hdistinct hsynthetic
  have hinformed : c.Informed (World.Tidy p) (World.Knows p) :=
    informed_closureOf p project starts serial only life
  have horderly : Closure.Orderly (p.hierarchy project) none c.bare :=
    orderly_closureOf p project starts serial only life
  have hwf : c.graph.WellFormed := horderly.wellFormed
  have hcontains : ∀ {n}, n ∈ CallGraph.nodes c.graph → c.graph.contains n :=
    fun hn => hwf.contains_iff_mem_nodes.2 hn
  -- An ordinary node is a function, and no function passes for a root.
  have hordinary : ∀ {n}, c.graph.contains n → n.kind = .ordinary →
      n.unit.ref ≠ CodeUnit.fakeRoot.ref ∧ n.unit.ref ≠ CodeUnit.fakeWorldClinit.ref := by
    intro n hn hk
    rcases hinformed.nodes hn hk with ⟨f, ref, hf, hunit⟩
    rw [hunit]
    exact hsynthetic f ref hf
  -- So the reference of a root leads to its number.
  have hroots : CodeUnit.fakeRoot.ref ≠ CodeUnit.fakeWorldClinit.ref := by decide
  have hroot : ∀ {n}, c.graph.contains n → n.unit.ref = CodeUnit.fakeRoot.ref →
      n.id = Graph.rootId := by
    intro n hn href
    rcases hwf.kind_cases hn with ⟨hid, _, _⟩ | ⟨_, _, hunit⟩ | ⟨_, _, hk⟩
    · exact hid
    · rw [hunit] at href
      exact absurd href.symm hroots
    · exact absurd href (hordinary hn hk).1
  have hclinit : ∀ {n}, c.graph.contains n → n.unit.ref = CodeUnit.fakeWorldClinit.ref →
      n.id = Graph.clinitId := by
    intro n hn href
    rcases hwf.kind_cases hn with ⟨_, _, hunit⟩ | ⟨hid, _, _⟩ | ⟨_, _, hk⟩
    · rw [hunit] at href
      exact absurd href hroots
    · exact hid
    · exact absurd href (hordinary hn hk).2
  refine ⟨fun hn s hs => ?_, fun {a} ha {b} hb href _ => ?_,
    fun hn hk _ => hordinary (hcontains hn) hk⟩
  · have hsites := Graph.callSites_eq (hcontains hn)
    exact hinformed.sites _ s (by rw [← hsites]; exact hs)
  · have ha := hcontains ha
    have hb := hcontains hb
    rcases hwf.kind_cases ha with ⟨hid, _, hunit⟩ | ⟨hid, _, hunit⟩ | ⟨hna, hnc, hka⟩
    · rw [hunit] at href
      exact Graph.eq_of_contains ha hb (hid.trans (hroot hb href.symm).symm)
    · rw [hunit] at href
      exact Graph.eq_of_contains ha hb (hid.trans (hclinit hb href.symm).symm)
    · rcases hwf.kind_cases hb with ⟨_, _, hunit⟩ | ⟨_, _, hunit⟩ | ⟨_, _, hkb⟩
      · rw [hunit] at href
        exact absurd (hroot ha href) hna
      · rw [hunit] at href
        exact absurd (hclinit ha href) hnc
      · -- Everything has one context, so a unit has one node.
        have hunit := eq_of_ref_eq hdistinct (hinformed.nodes ha hka) (hinformed.nodes hb hkb) href
        have hlookup := hwf.lookup_of_everywhere horderly.everywhere ha
        rw [hunit, hwf.lookup_of_everywhere horderly.everywhere hb, Option.some.injEq] at hlookup
        exact hlookup.symm

/-! ## References and functions -/

theorem single_run (p : Program) (ref : MethodRef) (w : World) :
    ((World.single p ref).run w).1 = (w.index.owners.find? ref).map (w.index.unit p) := rfl

/-- References are distinct exactly if each function is found under its own. In one
    direction the owner of a reference is the function that has it. In the other the unit
    that is found says of which function it is, so no other function owns the reference. -/
theorem distinct_iff_single {ix : FunctionIndex} (hix : ix.Sound) :
    ix.Distinct ↔ ∀ (w : World) (f : Nat), w.index = ix → ix.refs.contains f →
      ((World.single p (ix.unit p f).ref).run w).1 = some (ix.unit p f) := by
  rw [hix.distinct_iff]
  constructor
  · rintro hback w f rfl hf
    rcases Option.isSome_iff_exists.1 hf with ⟨ref, href⟩
    have hunit : (w.index.unit p f).ref = ref := by
      rw [FunctionIndex.unit_of_find? href]
      rfl
    rw [single_run, hunit, hback f ref href]
    rfl
  · intro hall f ref href
    have hsingle := hall { index := ix } f rfl (Option.isSome_iff_exists.2 ⟨ref, href⟩)
    rw [single_run, FunctionIndex.unit_of_find? href] at hsingle
    rcases Option.map_eq_some_iff.1 hsingle with ⟨g, hg, hunit⟩
    -- The unit says which function it is.
    have hfg : g = f := congrArg (fun u => u.function?.getD g) hunit
    rw [hfg] at hg
    exact hg

/-- A call site that was made from a reference leads to the callee, however much was
    indexed in between. The reference was given when the site was made and has not
    changed since. -/
theorem single_siteTarget {ix : FunctionIndex} (hix : ix.Sound) (hdistinct : ix.Distinct)
    (v w : World) (g : Nat) (later : List Nat) :
    let r := (World.siteTarget p (.callStatic g)).run v
    ix = later.foldl (FunctionIndex.add p) r.2.index → w.index = ix →
      (r.1.2 = .static ∨ r.1.2 = .special) ∧
        ((World.single p r.1.1).run w).1 = some (ix.unit p g) := by
  intro r hlater hw
  have hkind : r.1.2 = if (p.function g).receiver.isSome then .special else .static := rfl
  rcases Option.isSome_iff_exists.1 (v.index.contains_refs_add p g) with ⟨ref, href⟩
  have htarget : r.1.1 = ref := by
    have hunit : (v.index.add p g).unit p g = _ := FunctionIndex.unit_of_find? href
    exact congrArg CodeUnit.ref hunit
  -- What was given to a function when the site was made is not taken back.
  have hkept : ix.refs.find? g = some ref := by
    rw [hlater]
    exact FunctionIndex.find?_refs_foldl href later
  constructor
  · rw [hkind]
    split
    · exact Or.inr rfl
    · exact Or.inl rfl
  · rw [single_run, hw, htarget, hix.distinct_iff.1 hdistinct g ref hkept]
    rfl

/-- References never change. They lead back to their functions as long as no function is
    indexed of which both references are taken, and then call sites lead to their callees and
    stored graphs keep their nodes apart. -/
theorem references_resolve_iff (p : Program) (fs : List Nat) :
    let ix := fs.foldl (FunctionIndex.add p) p.startIndex
    (∀ (later : List Nat) f ref, ix.refs.find? f = some ref →
      (later.foldl (FunctionIndex.add p) ix).refs.find? f = some ref) ∧
    -- References are distinct if no function clashed with those before it, and only then.
    (ix.Distinct ↔ ∀ pre f post, p.listed ++ fs = pre ++ f :: post →
      ¬FunctionIndex.Clashes p (pre.foldl (FunctionIndex.add p) {}) f) ∧
    (ix.Distinct ↔ ∀ (w : World) (f : Nat), w.index = ix → ix.refs.contains f →
      ((World.single p (ix.unit p f).ref).run w).1 = some (ix.unit p f)) ∧
    -- They are if labels tell functions apart that look alike, in whatever order they come.
    (p.TellsApart (p.listed ++ fs) → ix.Distinct) ∧
    (ix.Distinct → ∀ (v w : World) (g : Nat) (later : List Nat),
      let r := (World.siteTarget p (.callStatic g)).run v
      ix = later.foldl (FunctionIndex.add p) r.2.index → w.index = ix →
        (r.1.2 = .static ∨ r.1.2 = .special) ∧
          ((World.single p r.1.1).run w).1 = some (ix.unit p g)) ∧
    -- The index of a closure is one of these, and no two nodes of its graph come back as one.
    ∀ (project : Project) (starts : List Nat) (serial : Nat) (only : Bool) (life : Lifetime),
      let c := (p.closureOf project starts serial only life).1
      (∃ more : List Nat, c.world.index = more.foldl (FunctionIndex.add p) p.startIndex) ∧
      (c.world.index.Distinct →
        (∀ f ref, c.world.index.refs.find? f = some ref →
          ref ≠ CodeUnit.fakeRoot.ref ∧ ref ≠ CodeUnit.fakeWorldClinit.ref) →
        ∀ serial', ∃ g', Document.decode serial' (Document.encode c.graph) = .ok g' ∧
          CallGraph.Restored c.graph (CallGraph.renumbered serial' c.graph) g') := by
  intro ix
  have hix : ix.Sound := (FunctionIndex.Sound.empty.foldl_add p p.listed).foldl_add p fs
  have hall : ix = (p.listed ++ fs).foldl (FunctionIndex.add p) {} := by
    rw [List.foldl_append]
    rfl
  have hempty : FunctionIndex.Distinct {} := by
    intro f g ref hf
    cases hf
  refine ⟨fun later f ref hf => FunctionIndex.find?_refs_foldl hf later, ?_,
    distinct_iff_single hix, fun happart => ?_, single_siteTarget hix, ?_⟩
  · rw [hall, FunctionIndex.distinct_foldl_iff .empty]
    exact and_iff_right hempty
  · rw [hall]
    exact happart.distinct fun g hg => hg
  · intro project starts serial only life c
    refine ⟨(informed_closureOf p project starts serial only life).good.indexed,
      fun hdistinct hsynthetic serial' => ?_⟩
    have hlawful := (orderly_closureOf p project starts serial only life).wellFormed.lawful
    have hstorable := storable_closureOf p project starts serial only life hdistinct hsynthetic
    rcases CallGraph.replayed_encode hlawful hstorable serial' with ⟨d, hdecode, hd⟩
    exact ⟨d.graph, hdecode, hd.restored hlawful⟩

/-- A function that calls three others. All look alike, and labels may or may not tell
    them apart. -/
def litter (labels : Nat → String) : Program where
  functions := #[
    { label := "feed", name := "feed", signature := "func()", hasBody := true
      code := [⟨.callStatic 1, none⟩, ⟨.callStatic 2, none⟩, ⟨.callStatic 3, none⟩] },
    { label := labels 1, name := "eat", signature := "func()", hasBody := true },
    { label := labels 2, name := "eat", signature := "func()", hasBody := true },
    { label := labels 3, name := "eat", signature := "func()", hasBody := true }]

/-- With labels of their own the three functions are found, have nodes and are stored. -/
theorem references_resolve_iff_litter :
    let p := litter fun f => "eat@" ++ toString f
    let ix := [0, 1, 2, 3].foldl (FunctionIndex.add p) p.startIndex
    let c := (p.closureOf default [0] 0 false .unbounded).1
    p.TellsApart (p.listed ++ [0, 1, 2, 3]) ∧ CallGraph.nodeCount c.graph = 6 ∧
      ((World.single p (ix.unit p 2).ref).run { index := ix }).1 = some (ix.unit p 2) ∧
      ∃ g', Document.decode 1 (Document.encode c.graph) = .ok g' ∧
        CallGraph.Restored c.graph (CallGraph.renumbered 1 c.graph) g' := by
  intro p ix c
  have happart : p.TellsApart (p.listed ++ [0, 1, 2, 3]) := by decide +kernel
  rcases references_resolve_iff p [0, 1, 2, 3] with ⟨_, _, hsingle, hlabels, _, hclosure⟩
  have hdistinct : ix.Distinct := hlabels happart
  -- The closure indexes the functions in the order of the calls.
  have hrefs : c.world.index.refs = ix.refs := by decide +kernel
  have hown : c.world.index.Distinct := by
    intro f g ref
    rw [hrefs]
    exact hdistinct f g ref
  have hentries : ∀ e ∈ c.world.index.refs.entries,
      e.2 ≠ CodeUnit.fakeRoot.ref ∧ e.2 ≠ CodeUnit.fakeWorldClinit.ref := by decide +kernel
  have hsecond := hsingle.1 hdistinct { index := ix } 2 rfl (by decide +kernel)
  refine ⟨happart, by decide +kernel, hsecond, ?_⟩
  exact (hclosure default [0] 0 false .unbounded).2 hown
    (fun f ref hf => hentries (f, ref) ((Table.find?_eq_some_iff _ _ _).1 hf)) 1

/-- A function that is called, but lost to another one that looks like it: its call site leads
    to the other, and it has no node. -/
theorem alike_functions_merge :
    let p := litter fun _ => "den.eat"
    let ix := [0, 1, 2, 3].foldl (FunctionIndex.add p) p.startIndex
    (ix.unit p 2).ref = (ix.unit p 3).ref ∧
      ((World.single p (ix.unit p 2).ref).run { index := ix }).1 = some (ix.unit p 3) ∧
      CallGraph.nodeCount (p.closureOf default [0] 0 false .unbounded).1.graph = 5 := by
  decide +kernel

end Program

end CallAtlas
