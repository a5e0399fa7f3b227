import CallAtlas.Proofs.Course
import CallAtlas.Proofs.Spending
import Mathlib.Data.Set.Card
import Mathlib.Logic.Relation

/-!
# Refinement Is Never Undone and Success Is Complete

A refiner is asked again and again. Passes stop at different sites, because their steps run
out, because the caller leaves, or because a field is turned down, and the policy may be
prepared for another pass at any time. This module says what all of that adds up to: a site
that was narrowed keeps what it was given, and a pass that is satisfied has narrowed every
call that the policy refined when it was asked.

A policy may answer differently each time it is asked, and being prepared for another pass is
meant to make it refine more. So a satisfied pass is not the last word. What a later pass does
depends on what the policy says then about the calls that are left, and on nothing else: the
pass does nothing exactly if the policy refines none of them (`Refiner.idles_iff`). A policy
that only changes when it is prepared is `Steady`, and one that keeps to its answers for good
is `Settled`. The policies that have a name are settled, whatever they have learned about
fields, so for them success is final.

That a satisfied pass leaves nothing to narrow is not an invariant of the pass, since it does
not hold before the end. What every visit keeps is weaker: a given site is narrowed, or some
site was turned down. The visit of the site itself brings this about, and a satisfied pass has
visited every site and turned none down.

## Main definitions

* `RefinementPolicy.AskedSite`, `RefinementPolicy.Asked`, `RefinementPolicy.Used`: What may
  happen to a policy.
* `RefinementPolicy.Steady`, `RefinementPolicy.Settled`: Its answers about call sites do not
  change while it is asked, and do not change at all.
* `Program.CallsAt`: A site denotes a call.
* `Refiner.Visit`: What a visit of a site comes to.
* `Refiner.OverridingCall`, `Refiner.Complete`: The calls that choose among overrides, and that
  those to be narrowed are.
* `Refiner.Idles`, `Refiner.LeavesAlone`: A pass does nothing, and the policy refines no call
  that is left.

## Theorems

* `Refiner.visit_visitSite`: All that a visit of a site can do.
* `Refiner.find?_narrowed_after`: What a site keeps never changes.
* `Refiner.contains_of_admitted`: A satisfied pass narrows what the policy refines.
* `Refiner.idles_iff`: When a pass does nothing.
* `Refiner.refinement_completes`: Progress is kept, and success is complete.
* `Refiner.success_is_not_final`: A policy that refines more call sites later, and a call that
  the graph does not have.
-/

namespace CallAtlas

open Relation (ReflTransGen)

namespace RefinementPolicy

variable {π : Type} [RefinementPolicy π] {q q' : π} {admits : Node → CallSite → Bool}

/-- The policy is asked about a call site. -/
def AskedSite (q q' : π) : Prop := ∃ n site, q' = (admitsSite q n site).2

/-- The policy is asked about a call site or about a field. -/
def Asked (q q' : π) : Prop := AskedSite q q' ∨ ∃ h f, q' = (admitsField h q f).2

/-- The policy is asked something or is prepared for another pass. -/
def Used (q q' : π) : Prop := Asked q q' ∨ q' = (nextPass q).1

/-- However often the policy is asked, it gives the same answers about call sites. It
    may answer differently once it was prepared for another pass. -/
def Steady (admits : Node → CallSite → Bool) (q : π) : Prop :=
  ∀ q', ReflTransGen Asked q q' → ∀ n site, (admitsSite q' n site).1 = admits n site

/-- Whatever happens to the policy, it gives the same answers about call sites. -/
def Settled (admits : Node → CallSite → Bool) (q : π) : Prop :=
  ∀ q', ReflTransGen Used q q' → ∀ n site, (admitsSite q' n site).1 = admits n site

theorem used_of_asked (hq : ReflTransGen Asked q q') : ReflTransGen Used q q' :=
  ReflTransGen.mono (fun _ _ => Or.inl) q q' hq

theorem Settled.steady (h : Settled admits q) : Steady admits q :=
  fun q' hq => h q' (used_of_asked hq)

/-- A policy that will not change its answers still will not after it was used. -/
theorem Settled.used (h : Settled admits q) (hq : ReflTransGen Used q q') : Settled admits q' :=
  fun q'' hlater => h q'' (hq.trans hlater)

end RefinementPolicy

open RefinementPolicy (AskedSite Asked Used Steady Settled used_of_asked)

namespace Policy

variable {q q' : Policy}

/-- The call sites that a policy with a name refines never change. It learns about fields, and
    being prepared for another pass is about fields too. -/
theorem settled (q : Policy) : Settled q.calls.shouldRefine q := by
  intro q' hq n site
  have hcalls : q'.calls = q.calls := by
    induction hq with
    | refl => rfl
    | tail _ hlast ih =>
        rcases hlast with (⟨_, _, rfl⟩ | ⟨_, _, rfl⟩) | rfl
        · exact ih
        · exact ih
        · exact ih
  rw [← hcalls]
  rfl

/-- A policy with a name learns nothing from questions about call sites. -/
theorem eq_of_askedSite (hq : ReflTransGen AskedSite q q') : q' = q := by
  induction hq with
  | refl => rfl
  | tail _ hlast ih =>
      rcases hlast with ⟨_, _, rfl⟩
      exact ih

end Policy

/-! ## Scans -/

section Scan

variable {α σ ε : Type} {visit : α → σ → Option ε × σ}

/-- What every visit keeps holds at every moment of a scan. -/
theorem Meets.keeps {motive : σ → Prop} {l : List α} {s t : σ} {a : α} (h : Meets visit l s a t)
    (hs : motive s) (hvisit : ∀ b t, motive t → motive (visit b t).2) : motive t := by
  induction h with
  | head => exact hs
  | @tail a b rest s s' t hfirst _ ih =>
      have hnext := hvisit a s hs
      rw [hfirst] at hnext
      exact ih hnext

/-- A scan that nothing has ended has visited every element. The moment of the visit is
    given too, since what a visit finds depends on the state that it begins in. -/
theorem exists_meets_of_scan {a : α} : ∀ {l : List α} {s t : σ}, scan visit l s = (none, t) →
    a ∈ l → ∃ u v, Meets visit l s a u ∧ visit a u = (none, v) := by
  intro l
  induction l with
  | nil => exact fun _ ha => absurd ha List.not_mem_nil
  | cons b rest ih =>
      intro s t hscan ha
      unfold scan at hscan
      rcases hb : visit b s with ⟨ended, s'⟩
      rw [hb] at hscan
      cases ended with
      | some e => cases hscan
      | none =>
          -- The element is the one that was just visited, or the rest of the scan comes to it.
          rcases List.mem_cons.1 ha with rfl | ha
          · exact ⟨s, s', .head, hb⟩
          · rcases ih hscan ha with ⟨u, v, hmeets, hvisit⟩
            exact ⟨u, v, .tail hb hmeets, hvisit⟩

/-- A scan that nothing has ended was not ended by any of its visits. -/
theorem Meets.visit_of_scan {l : List α} {s t u : σ} {a : α} (h : Meets visit l s a t)
    (hscan : scan visit l s = (none, u)) : ∃ t', visit a t = (none, t') := by
  induction h with
  | @head a rest s =>
      unfold scan at hscan
      rcases hv : visit a s with ⟨ended, s'⟩
      rw [hv] at hscan
      cases ended with
      | some e => cases hscan
      | none => exact ⟨s', rfl⟩
  | tail hfirst _ ih =>
      rw [scan, hfirst] at hscan
      exact ih hscan

/-- A scan goes to its end if none of its visits ends it. What the visits keep may use up one of
    as many things as there are elements, such as the looks that a caller waits for. -/
theorem scan_counted {motive : Nat → σ → Prop} : ∀ (l : List α) (s : σ), motive l.length s →
    (∀ a t k, Meets visit l s a t → motive (k + 1) t →
      ∃ t', visit a t = (none, t') ∧ motive k t') →
    ∃ t, scan visit l s = (none, t) ∧ motive 0 t := by
  intro l
  induction l with
  | nil => exact fun s hs _ => ⟨s, rfl, hs⟩
  | cons a rest ih =>
      intro s hs hvisit
      rcases hvisit a s rest.length .head hs with ⟨s', hfirst, hs'⟩
      rw [scan, hfirst]
      exact ih s' hs' fun b t k hb ht => hvisit b t k (.tail hfirst hb) ht

end Scan

/-- A site of a function denotes a call. -/
def Program.CallsAt (p : Program) (caller : Nat) (site : CallSite) : Prop :=
  ∃ i position, p.siteInstruction? caller site.pc = some (i, position) ∧ i.operation.isCall

namespace Refiner

variable {G π : Type} [CallGraph G] [RefinementPolicy π] {p : Program} {g : G} {n : Node}
  {caller looks : Nat} {site : CallSite} {r t : RefinePass π} {s : PassState Refiner π}
  {admits : Node → CallSite → Bool} {key : Int × CallSite} {kept : IdSet} {budget : Budget}

/-! ## What a visit of a site comes to -/

/-- A call to decide about: the site chooses among overrides, is not narrowed and denotes a call. -/
structure Undecided (p : Program) (n : Node) (caller : Nat) (site : CallSite) (r : RefinePass π) :
    Prop where
  overriding : site.kind.isOverriding
  fresh : r.state.query.narrowed.contains (n.id, site) = false
  calls : p.CallsAt caller site

/-- What a visit of a site comes to. -/
inductive Visit (p : Program) (g : G) (n : Node) (caller : Nat) (site : CallSite)
    (r : RefinePass π) : Option (PassError EndCause) × RefinePass π → Prop
  /-- There is no choice among overrides, or the site is narrowed. -/
  | skipped : site.kind.isOverriding = false ∨ r.state.query.narrowed.contains (n.id, site) →
      Visit p g n caller site r (none, r)
  /-- The policy does not refine the site, or there is no call. -/
  | passedBy {admitted : Bool} {q : π} :
      RefinementPolicy.admitsSite r.state.policy n site = (admitted, q) →
      ¬(admitted ∧ p.CallsAt caller site) →
      Visit p g n caller site r (none, { r with state := { r.state with policy := q } })
  /-- The field that the receiver comes from is turned down. -/
  | declined {o : Origin} {q q' : π} : Undecided p n caller site r →
      RefinementPolicy.admitsSite r.state.policy n site = (true, q) →
      admitsOrigin p q o = (false, q') →
      Visit p g n caller site r (none, { r with
        state := { r.state with
          policy := q'
          query := { r.state.query with declined := r.state.query.declined + 1 } }
        satisfied := false })
  /-- The steps have run out. -/
  | unpaid {o : Origin} {q q' : π} : Undecided p n caller site r →
      RefinementPolicy.admitsSite r.state.policy n site = (true, q) →
      admitsOrigin p q o = (true, q') →
      Visit p g n caller site r (some .outOfBudget, { r with
        state := { r.state with policy := q' }
        budget := (r.budget.charge 1).1 })
  /-- The site is narrowed. -/
  | narrowed {o : Origin} {position : Nat} {q q' : π} : Undecided p n caller site r →
      RefinementPolicy.admitsSite r.state.policy n site = (true, q) →
      admitsOrigin p q o = (true, q') →
      Visit p g n caller site r (none, { r with
        state := { r.state with
          policy := q'
          query := { r.state.query with
            narrowed := r.state.query.narrowed.insert (n.id, site)
              (narrow p g n caller position site) } }
        budget := (r.budget.charge 1).1 })

/-- All that a visit of a site can do. This is the only place where the code of a visit is looked
    at; what follows is about its outcomes. -/
theorem visit_visitSite (p : Program) (g : G) (n : Node) (caller : Nat) (site : CallSite)
    (r : RefinePass π) : Visit p g n caller site r (visitSite p g n caller site r) := by
  unfold visitSite
  by_cases hskip : (!site.kind.isOverriding || r.state.query.narrowed.contains (n.id, site)) = true
  · rw [if_pos hskip]
    rw [Bool.or_eq_true, Bool.not_eq_true'] at hskip
    exact .skipped hskip
  -- From here on the policy is asked about the site.
  have hopen : site.kind.isOverriding = true ∧
      r.state.query.narrowed.contains (n.id, site) = false := by
    simp only [Bool.or_eq_true, Bool.not_eq_true', not_or, Bool.not_eq_false,
      Bool.not_eq_true] at hskip
    exact hskip
  rw [if_neg hskip]
  rcases hsite : RefinementPolicy.admitsSite r.state.policy n site with ⟨admitted, q⟩
  cases admitted with
  | false => exact .passedBy hsite (by simp)
  | true =>
      cases hinstr : p.siteInstruction? caller site.pc with
      | none =>
          refine .passedBy hsite ?_
          rintro ⟨_, i, position, hi, _⟩
          rw [hinstr] at hi
          cases hi
      | some e =>
          rcases e with ⟨i, position⟩
          cases hcall : i.operation.isCall with
          | false =>
              simp only [hcall]
              refine .passedBy hsite ?_
              rintro ⟨_, i', position', hi, hcall'⟩
              rw [hinstr, Option.some.injEq, Prod.mk.injEq] at hi
              rw [← hi.1, hcall] at hcall'
              cases hcall'
          | true =>
              have hundecided : Undecided p n caller site r :=
                ⟨hopen.1, hopen.2, i, position, hinstr, hcall⟩
              simp only [hcall, Bool.not_true, Bool.false_eq_true, if_false]
              rcases horigin : admitsOrigin p q i.operation.origin with ⟨admitted, q'⟩
              cases admitted with
              | false => exact .declined hundecided hsite horigin
              | true =>
                  rcases hcharge : r.budget.charge 1 with ⟨budget, enough⟩
                  have hbudget : budget = (r.budget.charge 1).1 := by rw [hcharge]
                  subst hbudget
                  cases enough with
                  | false => exact .unpaid hundecided hsite horigin
                  | true => exact .narrowed hundecided hsite horigin

/-- A field is asked about if there is one that the receiver comes from. -/
theorem asked_admitsOrigin (p : Program) (q : π) (o : Origin) :
    ReflTransGen Asked q (admitsOrigin p q o).2 := by
  unfold admitsOrigin
  cases o.field? with
  | none => exact .refl
  | some f => exact .single (Or.inr ⟨_, f, rfl⟩)

/-- A visit of a site asks the policy about the site and then perhaps about a field. -/
theorem asked_visitSite (p : Program) (g : G) (n : Node) (caller : Nat) (site : CallSite)
    (r : RefinePass π) :
    ReflTransGen Asked r.state.policy (visitSite p g n caller site r).2.state.policy := by
  -- The first question is about the site, whatever is answered.
  have hasked : ∀ {admitted q}, RefinementPolicy.admitsSite r.state.policy n site = (admitted, q) →
      ReflTransGen Asked r.state.policy q := by
    intro admitted q hsite
    exact .single (Or.inl ⟨n, site, by rw [hsite]⟩)
  have horigin : ∀ {o admitted} {q q' : π}, admitsOrigin p q o = (admitted, q') →
      ReflTransGen Asked q q' := by
    intro o admitted q q' ho
    have hboth := asked_admitsOrigin p q o
    rw [ho] at hboth
    exact hboth
  have hvisit := visit_visitSite p g n caller site r
  generalize visitSite p g n caller site r = out at hvisit ⊢
  cases hvisit with
  | skipped _ => exact .refl
  | passedBy hsite _ => exact hasked hsite
  | declined _ hsite ho => exact (hasked hsite).trans (horigin ho)
  | unpaid _ hsite ho => exact (hasked hsite).trans (horigin ho)
  | narrowed _ hsite ho => exact (hasked hsite).trans (horigin ho)

/-- What a site keeps does not change when a site is visited. -/
theorem find?_narrowed_visitSite (h : r.state.query.narrowed.find? key = some kept) :
    (visitSite p g n caller site r).2.state.query.narrowed.find? key = some kept := by
  have hvisit := visit_visitSite p g n caller site r
  generalize visitSite p g n caller site r = out at hvisit ⊢
  cases hvisit with
  | skipped _ => exact h
  | passedBy _ _ => exact h
  | declined _ _ _ => exact h
  | unpaid _ _ _ => exact h
  | narrowed hundecided _ _ =>
      rw [Table.find?_insert, if_neg]
      · exact h
      · -- Only a site that is not narrowed is.
        rintro rfl
        have hfresh := hundecided.fresh
        rw [Table.contains, h] at hfresh
        cases hfresh

/-! ## What a pass leaves behind -/

/-- What looks and visits of sites keep, the visit of a node keeps. -/
theorem visitNode_preserves {motive : RefinePass π → Prop}
    (hlook : ∀ r life, motive r → motive { r with state := { r.state with life } })
    (hvisit : ∀ n caller site r, motive r → motive (visitSite p g n caller site r).2)
    (n : Node) (r : RefinePass π) (hr : motive r) : motive (visitNode p g n r).2 := by
  unfold visitNode
  rcases r.state.life.poll with ⟨cause, life⟩
  cases cause with
  | some cause => exact hlook r life hr
  | none =>
      cases n.unit.function? with
      | none => exact hlook r life hr
      | some caller =>
          exact scan_keeps _ _ (hlook r life hr) fun site t _ ht => hvisit n caller site t ht

theorem asked_visitNode (p : Program) (g : G) (n : Node) {q : π}
    (h : ReflTransGen Asked q r.state.policy) :
    ReflTransGen Asked q (visitNode p g n r).2.state.policy :=
  visitNode_preserves (motive := fun r : RefinePass π => ReflTransGen Asked q r.state.policy)
    (fun _ _ hr => hr)
    (fun n caller site r hr => hr.trans (asked_visitSite p g n caller site r)) n r h

/-- A pass does nothing to the policy but ask it. -/
theorem asked_pass (p : Program) (g : G) (budget : Budget) (s : PassState Refiner π) :
    ReflTransGen Asked s.policy (pass p g budget s).2.2.policy := by
  rw [pass_state]
  exact scan_keeps (motive := fun r : RefinePass π => ReflTransGen Asked s.policy r.state.policy)
    _ _ .refl fun n _ _ hr => asked_visitNode p g n hr

/-- Between passes the policy is prepared, and in a pass it is asked. Nothing else is done to it. -/
theorem used_after (p : Program) (g : G) (s : PassState Refiner π) (e : Event) :
    ReflTransGen Used s.policy (after p g s e).policy := by
  cases e with
  | query number budget life => exact used_of_asked (asked_pass p g budget { s with life })
  | nextPass => exact .single (Or.inr rfl)

/-- What holds of the policy whatever happens to it holds after any events. -/
theorem used_foldl_after (p : Program) (g : G) (es : List Event) :
    ∀ s : PassState Refiner π, ReflTransGen Used s.policy (es.foldl (after p g) s).policy := by
  induction es with
  | nil => exact fun _ => .refl
  | cons e rest ih => exact fun s => (used_after p g s e).trans (ih _)

/-- What a site keeps never changes. A pass skips the sites that are narrowed, so it
    writes only what was not written before. -/
theorem find?_narrowed_after (e : Event) (h : s.query.narrowed.find? key = some kept) :
    (after p g s e).query.narrowed.find? key = some kept := by
  cases e with
  | nextPass => exact h
  | query number budget life =>
      exact pass_keeps (motive := fun narrowed => narrowed.find? key = some kept) h
        fun _ _ _ _ _ ht => find?_narrowed_visitSite ht

/-- What a site keeps is the same after any events, in whatever order they come. -/
theorem find?_narrowed_foldl (es : List Event) {s : PassState Refiner π}
    (h : s.query.narrowed.find? key = some kept) :
    (es.foldl (after p g) s).query.narrowed.find? key = some kept := by
  induction es generalizing s with
  | nil => exact h
  | cons e rest ih => exact ih (find?_narrowed_after e h)

/-- An edge that is hidden stays hidden as long as sites keep what they have. All its
    sites were narrowed to something else, and they are still narrowed to the same. -/
theorem hides_mono {r r' : Refiner}
    (h : ∀ key kept, r.narrowed.find? key = some kept → r'.narrowed.find? key = some kept)
    {a b : Int} (hab : (r.overlay g).hides a b) : (r'.overlay g).hides a b := by
  rcases hides_overlay.1 hab with ⟨e, he, hhides, ha, hb⟩
  rcases hides_iff.1 hhides with ⟨hsome, hall⟩
  refine hides_overlay.2 ⟨e, he, hides_iff.2 ⟨hsome, fun site hsite => ?_⟩, ha, hb⟩
  rcases hall site hsite with ⟨kept, hfind, hlost⟩
  exact ⟨kept, h _ _ hfind, hlost⟩

/-- What a site keeps are targets of it, and all of them if its caller was not analysed. -/
theorem kept_of_narrowed {policy : π} {es : List Event}
    (h : (afterAll p g policy es).query.narrowed.find? key = some kept) :
    ∃ n ∈ CallGraph.nodes g, ∃ caller, n.id = key.1 ∧ key.2 ∈ CallGraph.callSites g n ∧
      n.unit.function? = some caller ∧
      (∀ i ∈ kept, ∃ m ∈ CallGraph.targets g n key.2, m.id = i) ∧
      (caller ∉ p.analysed → ∀ m ∈ CallGraph.targets g n key.2, m.id ∈ kept) := by
  rcases admitted_of_narrowed h with ⟨n, caller, i, position, hn, hid, hunit, hadmitted, rfl⟩
  rcases hadmitted with ⟨_, _, _, _, _, _, _, ⟨_, _, _, _, _, hlook⟩, _⟩
  refine ⟨n, hn, caller, hid, hlook.mem, hunit, fun i hi => ?_, fun hnot m hm => ?_⟩
  · rcases mem_narrow.1 hi with ⟨m, hm, hmi, _⟩
    exact ⟨m, hm, hmi⟩
  · exact mem_narrow.2 ⟨m, hm, rfl, fun _ _ hrefuted => hnot hrefuted.1⟩

/-- The table of narrowed sites has each of them once, so its size counts them. -/
theorem size_narrowed (r : Refiner) :
    r.narrowed.size = {key | r.narrowed.contains key}.ncard := by
  have hkeys : {key | r.narrowed.contains key} = ↑r.narrowed.keys.toFinset := by
    ext key
    rw [Set.mem_ofPred_eq, Finset.mem_coe, List.mem_toFinset, Table.mem_keys]
    rfl
  have hnodup : r.narrowed.keys.Nodup := r.narrowed.nodup
  rw [hkeys, Set.ncard_coe_finset, List.toFinset_card_of_nodup hnodup, Table.keys,
    List.length_map, Table.size]

/-! ## What a satisfied pass has narrowed -/

/-- A call of the graph that chooses among overrides: a site of a function, of a kind
    that dispatches, which denotes a call. -/
structure OverridingCall (p : Program) (g : G) (n : Node) (caller : Nat) (site : CallSite) :
    Prop where
  mem_nodes : n ∈ CallGraph.nodes g
  function_eq : n.unit.function? = some caller
  mem_callSites : site ∈ CallGraph.callSites g n
  overriding : site.kind.isOverriding
  calls : p.CallsAt caller site

/-- All calls to be narrowed are. -/
def Complete (p : Program) (g : G) (admits : Node → CallSite → Bool)
    (narrowed : Table (Int × CallSite) IdSet) : Prop :=
  ∀ n caller site, OverridingCall p g n caller site → admits n site →
    narrowed.contains (n.id, site)

/-- A site is narrowed, or some site was turned down. -/
def Settles (key : Int × CallSite) (r : RefinePass π) : Prop :=
  r.state.query.narrowed.contains key ∨ r.satisfied = false

/-- A site that is settled stays settled. What is narrowed is not given up, and a pass
    does not become satisfied again. -/
theorem Settles.after_visitSite (h : Settles key r) :
    Settles key (visitSite p g n caller site r).2 := by
  refine h.imp contains_narrowed_visitSite fun hfalse => ?_
  have hvisit := visit_visitSite p g n caller site r
  generalize visitSite p g n caller site r = out at hvisit ⊢
  cases hvisit with
  | skipped _ => exact hfalse
  | passedBy _ _ => exact hfalse
  | declined _ _ _ => rfl
  | unpaid _ _ _ => exact hfalse
  | narrowed _ _ _ => exact hfalse

/-- The visit of a call that the policy refines settles it, unless it ends the pass. -/
theorem settles_visitSite (hcall : OverridingCall p g n caller site)
    (hadmits : (RefinementPolicy.admitsSite r.state.policy n site).1)
    (hnext : (visitSite p g n caller site r).1 = none) :
    Settles (n.id, site) (visitSite p g n caller site r).2 := by
  have hvisit := visit_visitSite p g n caller site r
  generalize visitSite p g n caller site r = out at hvisit hnext ⊢
  cases hvisit with
  | skipped hskip =>
      -- A site is skipped if it does not dispatch, which this one does, or if it is narrowed
      -- already.
      rcases hskip with hkind | hdone
      · rw [hcall.overriding] at hkind
        cases hkind
      · exact Or.inl hdone
  | passedBy hsite hnot =>
      rw [hsite] at hadmits
      exact absurd ⟨hadmits, hcall.calls⟩ hnot
  | declined _ _ _ => exact Or.inr rfl
  | unpaid _ _ _ => cases hnext
  | narrowed _ _ _ => exact Or.inl (Table.contains_insert.2 (Or.inl rfl))

/-- A visit of a node whose caller waits is a scan of its sites. -/
theorem visitNode_of_poll {life : Lifetime} (hpoll : r.state.life.poll = (none, life))
    (hunit : n.unit.function? = some caller) :
    visitNode p g n r = scan (visitSite p g n caller) (CallGraph.callSites g n)
      { r with state := { r.state with life } } := by
  simp only [visitNode, hpoll, hunit]

/-- A pass without an error went over all nodes. -/
theorem scan_of_pass (h : (pass p g budget s).1.error = none) :
    ∃ last, scan (visitNode p g) (CallGraph.nodes g) { state := s, budget } = (none, last) ∧
      pass p g budget s = ({ satisfied := last.satisfied }, last.budget, last.state) := by
  rcases hscan : scan (visitNode p g) (CallGraph.nodes g) { state := s, budget } with ⟨ended, last⟩
  unfold pass at h ⊢
  rw [hscan] at h ⊢
  cases ended with
  | some e => cases h
  | none => exact ⟨last, rfl, rfl⟩

/-- A pass without an error looks at every call of the graph that chooses among
    overrides. Each node is visited, and at each visit the caller still waits: otherwise
    the pass would have ended with an error. -/
theorem exists_looks (h : (pass p g budget s).1.error = none)
    (hcall : OverridingCall p g n caller site) :
    ∃ t, Looks p g { state := s, budget } n caller site t := by
  rcases scan_of_pass h with ⟨last, hscan, _⟩
  rcases exists_meets_of_scan hscan hcall.mem_nodes with ⟨r, r', hmeets, hvisit⟩
  rcases hpoll : r.state.life.poll with ⟨cause, life⟩
  cases cause with
  | some cause =>
      -- The visit of the node would have ended the pass.
      simp only [visitNode, hpoll] at hvisit
      cases hvisit
  | none =>
      rw [visitNode_of_poll hpoll hcall.function_eq] at hvisit
      rcases exists_meets_of_scan hvisit hcall.mem_callSites with ⟨t, _, hlook, _⟩
      exact ⟨t, r, life, hmeets, hpoll, hcall.function_eq, hlook⟩

/-- Up to a moment of a pass the policy was only asked. -/
theorem Looks.asked (h : Looks p g { state := s, budget } n caller site t) :
    ReflTransGen Asked s.policy t.state.policy := by
  rcases h with ⟨r, life, hmeets, _, _, hlook⟩
  have hnode : ReflTransGen Asked s.policy r.state.policy :=
    hmeets.keeps (motive := fun r : RefinePass π => ReflTransGen Asked s.policy r.state.policy)
      .refl fun n r hr => asked_visitNode p g n hr
  exact hlook.keeps (motive := fun t : RefinePass π => ReflTransGen Asked s.policy t.state.policy)
    hnode fun site t ht => ht.trans (asked_visitSite p g n caller site t)

/-- A satisfied pass has narrowed every call that the policy refined at the moment at which it was
    asked about it. Nothing is assumed of the policy: the answer counts that it gave then. -/
theorem contains_of_admitted (h : (pass p g budget s).1 = { satisfied := true })
    (hcall : OverridingCall p g n caller site)
    (hlook : Looks p g { state := s, budget } n caller site t)
    (hadmits : (RefinementPolicy.admitsSite t.state.policy n site).1) :
    (pass p g budget s).2.2.query.narrowed.contains (n.id, site) := by
  rcases scan_of_pass (congrArg PassAnswer.error h) with ⟨last, hscan, hpass⟩
  rcases hlook with ⟨r, life, hmeets, hpoll, hunit, hlook⟩
  -- Nothing has ended the pass, so neither did the visits of the node and of the site.
  rcases hmeets.visit_of_scan hscan with ⟨r', hnode⟩
  have hsites := hnode
  rw [visitNode_of_poll hpoll hunit] at hsites
  rcases hlook.visit_of_scan hsites with ⟨t', hsite⟩
  have hsettles : Settles (n.id, site) r' := by
    have hend := hlook.scan_reaches (motive := Settles (n.id, site))
      (settles_visitSite hcall hadmits (by rw [hsite])) fun _ _ ht => ht.after_visitSite
    rw [hsites] at hend
    exact hend
  have hlast : Settles (n.id, site) last := by
    have hend := hmeets.scan_reaches (motive := Settles (n.id, site))
      (by rw [hnode]; exact hsettles) fun m r hr =>
        visitNode_preserves (fun _ _ hr => hr) (fun _ _ _ _ hr => hr.after_visitSite) m r hr
    rw [hscan] at hend
    exact hend
  rw [hpass] at h ⊢
  refine hlast.resolve_right fun hfalse => ?_
  have hsatisfied : last.satisfied = true := congrArg PassAnswer.satisfied h
  rw [hsatisfied] at hfalse
  cases hfalse

/-- A satisfied pass of a steady policy leaves nothing to narrow. The policy answers at
    the moment of the look as it does at the start of the pass, since it was only asked
    in between. -/
theorem complete_pass (hsteady : Steady admits s.policy)
    (h : (pass p g budget s).1 = { satisfied := true }) :
    Complete p g admits (pass p g budget s).2.2.query.narrowed := by
  intro n caller site hcall hadmits
  rcases exists_looks (congrArg PassAnswer.error h) hcall with ⟨t, hlook⟩
  refine contains_of_admitted h hcall hlook ?_
  rw [hsteady _ hlook.asked]
  exact hadmits

/-! ## Passes that do nothing -/

/-- A pass is satisfied, takes no step and narrows nothing. -/
def Idles (p : Program) (g : G) (budget : Budget) (s : PassState Refiner π) : Prop :=
  (pass p g budget s).1 = { satisfied := true } ∧ (pass p g budget s).2.1 = budget ∧
    (pass p g budget s).2.2.query = s.query

/-- The policy refines none of the calls that are left, at the moments at which a pass
    asks about them. -/
def LeavesAlone (p : Program) (g : G) (budget : Budget) (s : PassState Refiner π) : Prop :=
  ∀ n caller site t, OverridingCall p g n caller site →
    s.query.narrowed.contains (n.id, site) = false →
    Looks p g { state := s, budget } n caller site t →
    (RefinementPolicy.admitsSite t.state.policy n site).1 = false

/-- A pass on its way that has done nothing so far but ask about call sites. The caller
    waits for some more looks. -/
structure Idle (s : PassState Refiner π) (budget : Budget) (looks : Nat) (r : RefinePass π) :
    Prop where
  budget_eq : r.budget = budget
  satisfied_eq : r.satisfied = true
  query_eq : r.state.query = s.query
  asked : ReflTransGen AskedSite s.policy r.state.policy
  lasts : r.state.life.Lasts looks

/-- A visit of a call that the policy does not refine only asks. -/
theorem Idle.visitSite (h : Idle s budget looks r)
    (hleft : Undecided p n caller site r →
      (RefinementPolicy.admitsSite r.state.policy n site).1 = false) :
    ∃ r', visitSite p g n caller site r = (none, r') ∧ Idle s budget looks r' := by
  have hvisit := visit_visitSite p g n caller site r
  generalize Refiner.visitSite p g n caller site r = out at hvisit ⊢
  cases hvisit with
  | skipped _ => exact ⟨r, rfl, h⟩
  | passedBy hsite _ =>
      refine ⟨_, rfl, h.budget_eq, h.satisfied_eq, h.query_eq, h.asked.tail ⟨n, site, ?_⟩, h.lasts⟩
      rw [hsite]
  | declined hundecided hsite _ => exact absurd (hleft hundecided) (by simp [hsite])
  | unpaid hundecided hsite _ => exact absurd (hleft hundecided) (by simp [hsite])
  | narrowed hundecided hsite _ => exact absurd (hleft hundecided) (by simp [hsite])

/-- A pass over calls that the policy leaves alone asks about call sites and does
    nothing else. Two scans are nested here. The outer one uses up a look for each node,
    the inner one none. -/
theorem LeavesAlone.pass_eq (h : LeavesAlone p g budget s)
    (hlife : s.life.Lasts (CallGraph.nodes g).length) :
    ∃ life q, ReflTransGen AskedSite s.policy q ∧
      pass p g budget s = ({ satisfied := true }, budget, { s with policy := q, life }) := by
  have hscan : ∃ last, scan (visitNode p g) (CallGraph.nodes g) { state := s, budget } =
      (none, last) ∧ Idle s budget 0 last := by
    refine scan_counted (motive := fun looks r => Idle s budget looks r) _ _
      ⟨rfl, rfl, rfl, .refl, hlife⟩ fun n r looks hmeets hr => ?_
    rcases hr.lasts.poll with ⟨life, hpoll, hlasts⟩
    have hlooked : Idle s budget looks { r with state := { r.state with life } } :=
      ⟨hr.budget_eq, hr.satisfied_eq, hr.query_eq, hr.asked, hlasts⟩
    cases hunit : n.unit.function? with
    | none => exact ⟨_, by simp only [visitNode, hpoll, hunit], hlooked⟩
    | some caller =>
        rw [visitNode_of_poll hpoll hunit]
        -- The visits of sites take no looks, so the count stays where it is.
        refine scan_counted (motive := fun _ t => Idle s budget looks t) _ _ hlooked
          fun site t _ hlook ht => ht.visitSite fun hundecided => ?_
        have hcall : OverridingCall p g n caller site :=
          ⟨hmeets.mem, hunit, hlook.mem, hundecided.overriding, hundecided.calls⟩
        have hfresh := hundecided.fresh
        rw [ht.query_eq] at hfresh
        exact h n caller site t hcall hfresh ⟨r, life, hmeets, hpoll, hunit, hlook⟩
  -- What is left of the pass is its state, and three of its parts are known.
  rcases hscan with ⟨⟨⟨q, life, query⟩, budget', satisfied⟩, hscan, hlast⟩
  refine ⟨life, q, hlast.asked, ?_⟩
  have hbudget : budget' = budget := hlast.budget_eq
  have hsatisfied : satisfied = true := hlast.satisfied_eq
  have hquery : query = s.query := hlast.query_eq
  rw [pass, hscan, hbudget, hsatisfied, hquery]

/-- A pass whose caller waits does nothing exactly if the policy leaves the calls alone that are
    not narrowed. A call that it refined would have been narrowed, turned down or not paid for,
    and each of them shows. -/
theorem idles_iff (hlife : s.life.Lasts (CallGraph.nodes g).length) :
    Idles p g budget s ↔ LeavesAlone p g budget s := by
  constructor
  · -- Whatever happened to a call that was refined, the pass would not be idle.
    rintro ⟨hsatisfied, _, hquery⟩ n caller site t hcall hfresh hlook
    by_contra hadmits
    rw [Bool.not_eq_false] at hadmits
    have hnarrowed := contains_of_admitted hsatisfied hcall hlook hadmits
    rw [hquery, hfresh] at hnarrowed
    cases hnarrowed
  · intro h
    rcases h.pass_eq hlife with ⟨life, q, _, hpass⟩
    rw [Idles, hpass]
    exact ⟨rfl, rfl, rfl⟩

/-- With nothing left to narrow, a steady policy leaves all calls alone. -/
theorem Complete.leavesAlone (hdone : Complete p g admits s.query.narrowed)
    (hsteady : Steady admits s.policy) (budget : Budget) : LeavesAlone p g budget s := by
  intro n caller site t hcall hfresh hlook
  rw [hsteady _ hlook.asked]
  by_contra hadmits
  rw [Bool.not_eq_false] at hadmits
  rw [hdone n caller site hcall hadmits] at hfresh
  cases hfresh

theorem Complete.foldl_after (hdone : Complete p g admits s.query.narrowed) (es : List Event) :
    Complete p g admits (es.foldl (after p g) s).query.narrowed := by
  intro n caller site hcall hadmits
  rcases Option.isSome_iff_exists.1 (hdone n caller site hcall hadmits) with ⟨kept, hfind⟩
  exact Option.isSome_iff_exists.2 ⟨kept, find?_narrowed_foldl es hfind⟩

/-! ## Runs of the pass loop -/

/-- A log that ends with success leaves nothing to narrow. The induction is along the
    rounds before the last, and each of them only uses the policy. -/
theorem complete_takes (early : List (Budget × Refine.Draw)) {t : PassState Refiner π} :
    ∀ {pass : Nat} {s : PassState Refiner π}, Settled admits s.policy →
      Refine.Takes (query p g) s (Refine.logOf pass early (.success budget)) t →
      Complete p g admits t.query.narrowed := by
  induction early with
  | nil =>
      rintro pass s hsettled ⟨_, rfl, hanswer, rfl⟩
      exact complete_pass (s := Refine.looked s) hsettled.steady hanswer
  | cons round rest ih =>
      rcases round with ⟨budget, draw⟩
      rintro pass s hsettled ⟨_, rfl, _, _, hrest⟩
      -- The round leaves a policy that was asked and then prepared.
      have hround : ReflTransGen Used s.policy (Refine.prepared (query p g pass
          (Refine.budgetOf (Refine.looked s) pass) (Refine.looked s)).2).policy :=
        .tail (used_of_asked (asked_pass p g _ (Refine.looked s))) (Or.inr rfl)
      exact ih (hsettled.used hround) hrest

/-- A run that ends with success leaves nothing to narrow. Of the five ways in which a
    run ends, only a satisfied pass has this result and no error. -/
theorem complete_run (hsettled : Settled admits s.policy)
    (hnone : (Refine.run (query p g) s).2.1 = none)
    (hresult : (Refine.run (query p g) s).1.result = .success) :
    Complete p g admits (Refine.run (query p g) s).2.2.query.narrowed := by
  rcases Refine.runFrom_course (query p g) (RefinementPolicy.numPasses s.policy) 0 {} s with
    ⟨early, e, hcourse⟩
  have herror := hcourse.error_eq.symm.trans hnone
  have hend := hcourse.result_eq.symm.trans hresult
  cases e with
  | cancelled cause => cases herror
  | failed budget satisfied e => cases herror
  | exhausted => cases hend
  -- Without a change after the pass the run has no success either, whatever was drawn.
  | unchanged budget draw =>
      simp only [Refine.Ending.result] at hend
      split at hend
      · cases hend
      · cases hend
  | success budget => exact complete_takes early hsettled hcourse.takes

/-! ## Progress and success -/

/-- Progress is kept and success is complete, whatever has happened to a refiner and whatever
    comes later.

    The first half and the two statements about single passes hold for every policy, however it
    answers. A satisfied pass has narrowed what the policy refined when the pass asked, and a
    pass does nothing exactly if the policy refines none of the calls that are left. That
    success is final is a statement about the policy: it holds if the answers about call sites
    stay what they were, which is so for the policies that have a name. -/
theorem refinement_completes (p : Program) (g : G) (policy : π) (es later : List Event) :
    let s := afterAll p g policy es
    let t := afterAll p g policy (es ++ later)
    -- Narrowed sites stay narrowed, and what they keep never changes.
    (∀ key kept, s.query.narrowed.find? key = some kept →
      t.query.narrowed.find? key = some kept ∧
      -- They keep some of their targets, and all of them if their caller was not analysed.
      ∃ n ∈ CallGraph.nodes g, ∃ caller, n.id = key.1 ∧ key.2 ∈ CallGraph.callSites g n ∧
        n.unit.function? = some caller ∧
        (∀ i ∈ kept, ∃ m ∈ CallGraph.targets g n key.2, m.id = i) ∧
        (caller ∉ p.analysed → ∀ m ∈ CallGraph.targets g n key.2, m.id ∈ kept)) ∧
    (∀ a b, (s.query.overlay g).hides a b → (t.query.overlay g).hides a b) ∧
    s.query.narrowed.size = {key | s.query.narrowed.contains key}.ncard ∧
    -- A satisfied pass has looked at every call that chooses among overrides, and narrowed those
    -- that the policy refined then.
    (∀ budget life, (pass p g budget { s with life }).1 = { satisfied := true } →
      ∀ n caller site, OverridingCall p g n caller site →
        (∃ r, Looks p g { state := { s with life }, budget } n caller site r) ∧
        ∀ r, Looks p g { state := { s with life }, budget } n caller site r →
          (RefinementPolicy.admitsSite r.state.policy n site).1 →
          (pass p g budget { s with life }).2.2.query.narrowed.contains (n.id, site)) ∧
    -- A pass whose caller waits does nothing exactly if the policy refines none of those left.
    (∀ budget life, life.Lasts (CallGraph.nodes g).length →
      (Idles p g budget { s with life } ↔ LeavesAlone p g budget { s with life })) ∧
    -- A policy that changes only between passes: a satisfied pass leaves nothing to narrow.
    (∀ admits, Steady admits s.policy → ∀ budget life,
      (pass p g budget { s with life }).1 = { satisfied := true } →
      Complete p g admits (pass p g budget { s with life }).2.2.query.narrowed) ∧
    -- A policy that keeps to its answers: success is final, whatever happens in between, and a
    -- run that ends with success leaves nothing to narrow.
    ∀ admits, Settled admits policy →
      (∀ budget life, (pass p g budget { s with life }).1 = { satisfied := true } →
        ∀ (further : List Event) (budget' : Budget) (life' : Lifetime),
          life'.Lasts (CallGraph.nodes g).length →
          let u := further.foldl (after p g) (pass p g budget { s with life }).2.2
          ∃ left q, ReflTransGen AskedSite u.policy q ∧
            pass p g budget' { u with life := life' } =
              ({ satisfied := true }, budget', { u with policy := q, life := left })) ∧
      ∀ life, let r := Refine.run (query p g) { s with life }
        r.2.1 = none → r.1.result = .success → Complete p g admits r.2.2.query.narrowed := by
  intro s t
  have hlater : t = later.foldl (after p g) s := List.foldl_append
  have hkeeps : ∀ key kept, s.query.narrowed.find? key = some kept →
      t.query.narrowed.find? key = some kept := by
    intro key kept hfind
    rw [hlater]
    exact find?_narrowed_foldl later hfind
  refine ⟨fun key kept hfind => ⟨hkeeps key kept hfind, kept_of_narrowed hfind⟩,
    fun a b => hides_mono hkeeps, size_narrowed s.query, ?_, fun budget life hlife =>
      idles_iff hlife, fun admits hsteady budget life hsatisfied =>
      complete_pass (s := { s with life }) hsteady hsatisfied, fun admits hpolicy => ?_⟩
  · intro budget life hsatisfied n caller site hcall
    exact ⟨exists_looks (congrArg PassAnswer.error hsatisfied) hcall,
      fun r hlook hadmits => contains_of_admitted hsatisfied hcall hlook hadmits⟩
  -- Success is about the policy as the events have left it.
  have hsettled : Settled admits s.policy :=
    hpolicy.used (used_foldl_after p g es { policy, life := .unbounded, query := {} })
  refine ⟨fun budget life hsatisfied further budget' life' hlife => ?_,
    fun life hnone hresult => complete_run (s := { s with life }) hsettled hnone hresult⟩
  have hdone := complete_pass (s := { s with life }) hsettled.steady hsatisfied
  have hused := (used_of_asked (asked_pass p g budget { s with life })).trans
    (used_foldl_after p g further (pass p g budget { s with life }).2.2)
  have hleft := Complete.leavesAlone (s := { further.foldl (after p g) _ with life := life' })
    (hdone.foldl_after further) (hsettled.used hused).steady budget'
  exact hleft.pass_eq hlife

/-- The field is turned down at first, and the pass that is satisfied has one step for each of
    the two sites. After it a pass without steps is satisfied, and so is a run. -/
theorem refinement_completes_zoo :
    let policy : Policy := { fields := .tuned {}, calls := .always, schedule := .threePass }
    let es : List Event := [.query 0 { limit := 1 } .unbounded, .nextPass]
    let s := { afterAll zoo zooGraph policy es with life := .unbounded }
    let r := pass zoo zooGraph { limit := 1 } s
    s.query.narrowed.size = 1 ∧ r.1 = { satisfied := true } ∧ r.2.2.query.narrowed.size = 2 ∧
      Complete zoo zooGraph (fun _ _ => true) r.2.2.query.narrowed ∧
      (∃ left, pass zoo zooGraph { limit := 0 } r.2.2 =
        ({ satisfied := true }, { limit := 0 }, { r.2.2 with life := left })) ∧
      Complete zoo zooGraph (fun _ _ => true)
        (Refine.run (query zoo zooGraph) s).2.2.query.narrowed := by
  intro policy es s r
  have hsettled : Settled (fun _ _ => true) policy := policy.settled
  have hsteady : Steady (fun _ _ => true) s.policy := s.policy.settled.steady
  have hanswer : ∀ a : PassAnswer EndCause, a.satisfied → a.error = none →
      a = { satisfied := true } := by
    rintro ⟨_, _⟩ rfl rfl
    rfl
  have hsatisfied : r.1 = { satisfied := true } :=
    hanswer r.1 (by decide +kernel) (Option.isNone_iff_eq_none.1 (by decide +kernel))
  -- The theorem is applied after two events, a query with one step and the next pass.
  rcases refinement_completes zoo zooGraph policy es [] with ⟨_, _, _, _, _, hpass, hcomplete⟩
  rcases hcomplete _ hsettled with ⟨hidle, hrun⟩
  refine ⟨by decide +kernel, hsatisfied, by decide +kernel, hpass _ hsteady _ _ hsatisfied, ?_, ?_⟩
  · have hlife : r.2.2.life.polls = none := by decide +kernel
    have hlasts : r.2.2.life.Lasts (CallGraph.nodes zooGraph).length := by
      intro k hk
      rw [hlife] at hk
      cases hk
    rcases hidle { limit := 1 } .unbounded hsatisfied [] { limit := 0 } r.2.2.life hlasts with
      ⟨left, q, hasked, hnext⟩
    rw [Policy.eq_of_askedSite hasked] at hnext
    exact ⟨left, hnext⟩
  · simpa only [s] using hrun .unbounded (by decide +kernel) (by decide +kernel)

/-! ## Success that is not final -/

/-- A policy that refines no call site until it was prepared for another pass, and then all. -/
structure Reluctant where
  ready : Bool

instance : RefinementPolicy Reluctant where
  numPasses _ := 2
  budgetForPass _ _ := 5
  admitsSite q _ _ := (q.ready, q)
  admitsField _ q _ := (true, q)
  nextPass q := ({ ready := true }, !q.ready)

/-- The program with one more implementation, which passes the call on. Its type has no
    name, so the hierarchy does not know it and the graph has no node for it. -/
def wilderZoo : Program :=
  let passing := ⟨.callInterface 0 (.fieldLoad "struct" "pet"), none⟩
  { zoo with functions := zoo.functions.push { label := "struct.Speak", code := [passing] } }

/-- A satisfied pass is not the last one that narrows, if the policy refines more call sites once
    it was prepared. And a run that ends with success under a policy that refines every call site
    leaves a call unrefined, if the function that makes it has no node in the graph. -/
theorem success_is_not_final :
    let first := pass zoo zooGraph { limit := 0 } (afterAll zoo zooGraph (Reluctant.mk false) [])
    let next := after zoo zooGraph first.2.2 .nextPass
    let policy : Policy := { fields := .always, calls := .always, schedule := .onePass }
    let run := Refine.run (query wilderZoo zooGraph) (afterAll wilderZoo zooGraph policy [])
    (first.1.satisfied ∧ first.1.error.isNone ∧
      (pass zoo zooGraph { limit := 0 } next).1.error.isSome ∧
      (pass zoo zooGraph { limit := 2 } next).2.1.used = 2 ∧
      (pass zoo zooGraph { limit := 2 } next).2.2.query.narrowed.size = 2) ∧
    run.1.result = .success ∧ run.2.1.isNone ∧ run.2.2.query.narrowed.size = 2 ∧
      (wilderZoo.siteInstruction? 3 0).any (fun e => e.1.operation.isCall) ∧
      ∀ n ∈ zooGraph.nodes, n.unit.function? ≠ some 3 := by
  decide +kernel

end Refiner

end CallAtlas
