import CallAtlas.Proofs.Refiner
import CallAtlas.Proofs.Saturation
import CallAtlas.Word

/-!
# What a Pass Spends

A pass pays one step for each site it narrows. Which sites these are depends on what was
narrowed before, on the answers of a policy that learns while it is asked, and on where the
steps run out. This module says in advance what a pass will do: the sites it has to decide
about are listed before it begins, and it narrows the first of them that the policy admits, as
many as it has steps.

Two facts make the list of the beginning right throughout. No site is met twice, so what the
pass has narrowed itself never stands in its way. And no question changes an answer: a policy
remembers what it turned down, but it refines no other fields before the next pass. So the
place where a pass has come to is given by the sites it has seen, and the scan is followed by
what one visit adds to them.

## Main definitions

* `Refiner.Prospect`: A site to decide about, with the call it denotes.
* `Refiner.prospects`: The sites that a pass has to decide about.
* `Refiner.openSites`: Those of them that the policy admits.
* `Refiner.Advanced`: A state after some questions and some sites narrowed.
* `Refiner.Spent`, `Refiner.Overdrawn`: A pass on its way, and one whose steps ran out.
* `Refiner.Reads`: What going over some sites may come to.

## Theorems

* `Budget.charge_one`: What one step costs.
* `FieldPolicy.decide_questions`: No question changes an answer.
* `Refiner.Spent.visitSite`: What a visit of a site comes to.
* `Refiner.Spent.scan`: What holds of each visit of a scan holds of the scan.
* `Refiner.pass_spends`: A pass narrows as many sites as it has steps, in order, and the next
  one finds the rest.
-/

namespace CallAtlas

/-- A caller waits for at least some looks. -/
def Lifetime.Lasts (l : Lifetime) (looks : Nat) : Prop := ∀ k, l.polls = some k → looks ≤ k

/-- A caller that waits for some more looks waits for one less after a look. -/
theorem Lifetime.Lasts.poll {l : Lifetime} {looks : Nat} (h : l.Lasts (looks + 1)) :
    ∃ l', l.poll = (none, l') ∧ l'.Lasts looks := by
  rcases l with ⟨polls, cause⟩
  cases polls with
  | none => exact ⟨_, rfl, fun k hk => absurd hk (by simp)⟩
  | some k =>
      have hk : looks + 1 ≤ k := h k rfl
      obtain ⟨j, rfl⟩ : ∃ j, k = j + 1 := ⟨k - 1, by omega⟩
      refine ⟨_, rfl, fun k' hk' => ?_⟩
      cases hk'
      omega

/-- A step is recorded as one more, and is granted as long as the limit holds. The count
    has to fit into a word even for the step that is not granted. -/
theorem Budget.charge_one {limit used : Nat} (hlimit : (limit : Int) < Word.bound)
    (hused : (used : Int) + 1 < Word.bound) :
    Budget.charge { limit := Int64.ofNat limit, used := Int64.ofNat used } 1 =
      ({ limit := Int64.ofNat limit, used := Int64.ofNat (used + 1) },
        decide (used + 1 ≤ limit)) := by
  rw [Word.bound] at hlimit hused
  have hsum : Int64.ofNat used + 1 = Int64.ofNat (used + 1) := (Int64.ofNat_add used 1).symm
  have hle : Int64.ofNat (used + 1) ≤ Int64.ofNat limit ↔ used + 1 ≤ limit :=
    Int64.ofNat_le_iff_le (by omega) (by omega)
  simp only [Budget.charge, hsum, hle]

namespace FieldPolicy

/-- A question does not change the answer to another one. The growing policy remembers
    what it has turned down, but decides by a set that changes only between passes. -/
theorem decide_decide (h : TypeHierarchy) (q : FieldPolicy) (f f' : Field) :
    ((q.decide h f).2.decide h f').1 = (q.decide h f').1 := by
  cases q with
  | arraysOnly => rfl
  | always => rfl
  | never => rfl
  | manual m => rfl
  | tuned w =>
      -- What was turned down is remembered, but the set that decides stays the same.
      change ((w.decide h f).2.decide h f').1 = (w.decide h f').1
      rw [Bool.eq_iff_iff, Widening.decide_eq_true_iff, Widening.decide_eq_true_iff,
        Widening.types_decide]

/-- No questions change an answer. This is why the sites to be narrowed can be told
    before the pass. -/
theorem decide_questions (h : TypeHierarchy) (q : FieldPolicy) (fields : List Field) (f : Field) :
    ((q.afterAll h (questionsOf fields)).decide h f).1 = (q.decide h f).1 := by
  induction fields using List.reverseRecOn with
  | nil => rfl
  | append_singleton fields f' ih =>
      rw [questionsOf, List.map_append, List.map_singleton, afterAll_concat]
      exact (decide_decide h _ f' f).trans ih

end FieldPolicy

namespace Refiner

/-! ## The sites to decide about -/

/-- A site of a function, with the call that it denotes. -/
structure Prospect where
  node : Node
  caller : Nat
  site : CallSite
  call : Instruction
  position : Nat

namespace Prospect

/-- What the site is narrowed under. -/
def key (c : Prospect) : Int × CallSite := (c.node.id, c.site)

/-- The field that the receiver comes from. -/
def field? (c : Prospect) : Option Field := c.call.operation.origin.field?

/-- Whether the receiver comes from no field, or from one that the policy refines. -/
def admitted (p : Program) (q : Policy) (c : Prospect) : Bool :=
  c.field?.all fun f => (q.fields.decide p.typeHierarchy f).1

/-- The targets that the site keeps. -/
def kept {G : Type} [CallGraph G] (p : Program) (g : G) (c : Prospect) : IdSet :=
  narrow p g c.node c.caller c.position c.site

end Prospect

/-- The call to decide about at a site: the site chooses among overrides, is not
    narrowed, is admitted by the policy of call sites and denotes a call. -/
def prospect? (p : Program) (s : PassState Refiner Policy) (n : Node) (caller : Nat)
    (site : CallSite) : Option Prospect :=
  if site.kind.isOverriding && !s.query.narrowed.contains (n.id, site) &&
      s.policy.calls.shouldRefine n site then
    ((p.siteInstruction? caller site.pc).filter fun e => e.1.operation.isCall).map fun e =>
      ⟨n, caller, site, e.1, e.2⟩
  else none

/-- Those of some sites that the policy of fields admits. Each of them costs a step. -/
def payable (p : Program) (s : PassState Refiner Policy) (seen : List Prospect) : List Prospect :=
  seen.filter (Prospect.admitted p s.policy)

section

variable {G : Type} [CallGraph G]

/-- The sites of a node to decide about, in the order they were recorded. -/
def prospectsOf (p : Program) (g : G) (s : PassState Refiner Policy) (n : Node) : List Prospect :=
  match n.unit.function? with
  | none => []
  | some caller => (CallGraph.callSites g n).filterMap (prospect? p s n caller)

/-- The sites that a pass has to decide about. -/
def prospects (p : Program) (g : G) (s : PassState Refiner Policy) : List Prospect :=
  (CallGraph.nodes g).flatMap (prospectsOf p g s)

/-- The sites that a pass narrows if its steps last. -/
def openSites (p : Program) (g : G) (s : PassState Refiner Policy) : List Prospect :=
  payable p s (prospects p g s)

/-- A table with more sites narrowed. -/
def narrowAll (p : Program) (g : G) (narrowed : Table (Int × CallSite) IdSet)
    (done : List Prospect) : Table (Int × CallSite) IdSet :=
  done.foldl (fun t c => t.insert c.key (c.kept p g)) narrowed

end

/-- The policy after it was asked about the fields of some sites. -/
def questioned (p : Program) (q : Policy) (asked : List Prospect) : Policy :=
  { q with
    fields := q.fields.afterAll p.typeHierarchy
      (FieldPolicy.questionsOf (asked.filterMap Prospect.field?)) }

variable {G : Type} [CallGraph G] {p : Program} {g : G} {s t : PassState Refiner Policy}
  {r : RefinePass Policy} {n : Node} {caller limit looks : Nat} {site : CallSite} {c : Prospect}
  {asked done seen : List Prospect}

/-- When there is something to decide about at a site, and what. -/
theorem prospect?_eq_some_iff :
    prospect? p s n caller site = some c ↔
      site.kind.isOverriding ∧ s.query.narrowed.contains (n.id, site) = false ∧
        s.policy.calls.shouldRefine n site ∧
        p.siteInstruction? caller site.pc = some (c.call, c.position) ∧ c.call.operation.isCall ∧
        c.node = n ∧ c.caller = caller ∧ c.site = site := by
  rcases c with ⟨n', caller', site', i, position⟩
  simp only [prospect?, Option.ite_none_right_eq_some, Bool.and_eq_true, Bool.not_eq_true',
    Option.map_eq_some_iff, Option.filter_eq_some_iff, Prod.exists, Prospect.mk.injEq, and_assoc]
  constructor
  · rintro ⟨hkind, hnew, hcalls, i, position, hinstr, hcall, rfl, rfl, rfl, rfl, rfl⟩
    exact ⟨hkind, hnew, hcalls, hinstr, hcall, rfl, rfl, rfl⟩
  · rintro ⟨hkind, hnew, hcalls, hinstr, hcall, rfl, rfl, rfl⟩
    exact ⟨hkind, hnew, hcalls, _, _, hinstr, hcall, rfl, rfl, rfl, rfl, rfl⟩

theorem key_of_prospect? (h : prospect? p s n caller site = some c) : c.key = (n.id, site) := by
  rcases prospect?_eq_some_iff.1 h with ⟨_, _, _, _, _, rfl, _, rfl⟩
  rfl

theorem prospectsOf_of_none (h : n.unit.function? = none) : prospectsOf p g s n = [] := by
  simp only [prospectsOf, h]

theorem prospectsOf_of_some (h : n.unit.function? = some caller) :
    prospectsOf p g s n = (CallGraph.callSites g n).filterMap (prospect? p s n caller) := by
  simp only [prospectsOf, h]

/-- What is listed for a node comes from one of its sites. -/
theorem exists_of_mem_prospectsOf (h : c ∈ prospectsOf p g s n) :
    ∃ caller site, prospect? p s n caller site = some c := by
  cases hunit : n.unit.function? with
  | none =>
      rw [prospectsOf_of_none hunit] at h
      cases h
  | some caller =>
      rw [prospectsOf_of_some hunit, List.mem_filterMap] at h
      rcases h with ⟨site, _, hsite⟩
      exact ⟨caller, site, hsite⟩

/-- No site is listed twice. -/
theorem prospects_pairwise (hg : CallGraph.Lawful g) (p : Program) (s : PassState Refiner Policy) :
    (prospects p g s).Pairwise fun c d => c.key ≠ d.key := by
  -- The sites of a node differ from each other, and nodes differ in their numbers.
  refine List.pairwise_flatMap.2 ⟨fun n _ => ?_, hg.ascending.imp fun hlt c hc d hd heq => ?_⟩
  · cases hunit : n.unit.function? with
    | none =>
        rw [prospectsOf_of_none hunit]
        exact List.Pairwise.nil
    | some caller =>
        rw [prospectsOf_of_some hunit]
        refine List.pairwise_filterMap.2 ((hg.callSites_nodup n).imp fun hne c hc d hd heq => ?_)
        rw [key_of_prospect? hc, key_of_prospect? hd, Prod.mk.injEq] at heq
        exact hne heq.2
  · rcases exists_of_mem_prospectsOf hc with ⟨_, _, hc⟩
    rcases exists_of_mem_prospectsOf hd with ⟨_, _, hd⟩
    rw [key_of_prospect? hc, key_of_prospect? hd, Prod.mk.injEq] at heq
    omega

/-- After sites were narrowed, these and the earlier ones are. -/
theorem contains_narrowAll {narrowed : Table (Int × CallSite) IdSet} {key : Int × CallSite} :
    (narrowAll p g narrowed done).contains key ↔
      narrowed.contains key ∨ ∃ c ∈ done, c.key = key := by
  induction done generalizing narrowed with
  | nil => simp [narrowAll]
  | cons c rest ih =>
      refine ih.trans ?_
      rw [Table.contains_insert, List.exists_mem_cons_iff, or_assoc, or_left_comm]

/-! ## The course of a pass -/

/-- A state to which another one has advanced: the policy was asked about the fields of
    some sites, and some sites were narrowed. -/
structure Advanced (p : Program) (g : G) (s : PassState Refiner Policy)
    (asked done : List Prospect) (t : PassState Refiner Policy) : Prop where
  policy_eq : t.policy = questioned p s.policy asked
  narrowed_eq : t.query.narrowed = narrowAll p g s.query.narrowed done

theorem questioned_questioned (p : Program) (q : Policy) (asked : List Prospect) (c : Prospect) :
    questioned p (questioned p q asked) [c] = questioned p q (asked ++ [c]) := by
  simp only [questioned, FieldPolicy.questionsOf, FieldPolicy.afterAll, List.filterMap_append,
    List.map_append, List.foldl_append]

theorem narrowAll_concat (p : Program) (g : G) (narrowed : Table (Int × CallSite) IdSet)
    (done : List Prospect) (c : Prospect) :
    narrowAll p g narrowed (done ++ [c]) =
      (narrowAll p g narrowed done).insert c.key (c.kept p g) := by
  rw [narrowAll, List.foldl_append, List.foldl_cons, List.foldl_nil, ← narrowAll]

namespace Advanced

/-- A policy that was asked admits what it did. -/
theorem admitted_eq (h : Advanced p g s asked done t) (c : Prospect) :
    c.admitted p t.policy = c.admitted p s.policy := by
  unfold Prospect.admitted
  rw [h.policy_eq]
  cases c.field? with
  | none => rfl
  | some f => exact FieldPolicy.decide_questions _ _ _ f

/-- What was to decide about still is, unless it was narrowed. -/
theorem prospect?_eq (h : Advanced p g s asked done t) :
    prospect? p t n caller site =
      (prospect? p s n caller site).filter fun c => c.key ∉ done.map Prospect.key := by
  refine Option.ext fun c => ?_
  have hcalls : t.policy.calls = s.policy.calls := by rw [h.policy_eq, questioned]
  rw [Option.filter_eq_some_iff, prospect?_eq_some_iff, prospect?_eq_some_iff, hcalls,
    h.narrowed_eq, ← Bool.not_eq_true, contains_narrowAll]
  simp only [not_or, Bool.not_eq_true, decide_eq_true_eq, List.mem_map]
  constructor
  · rintro ⟨hkind, ⟨hnew, hfresh⟩, hcalls, hinstr, hcall, rfl, rfl, rfl⟩
    exact ⟨⟨hkind, hnew, hcalls, hinstr, hcall, rfl, rfl, rfl⟩, hfresh⟩
  · rintro ⟨⟨hkind, hnew, hcalls, hinstr, hcall, rfl, rfl, rfl⟩, hfresh⟩
    exact ⟨hkind, ⟨hnew, hfresh⟩, hcalls, hinstr, hcall, rfl, rfl, rfl⟩

end Advanced

/-- A pass on its way: it has decided about the sites seen so far, and paid for those
    that it narrowed. The caller waits for some more looks. This is the invariant of the
    two scans. It says all about the state in terms of the first one and of what was
    seen. -/
structure Spent (p : Program) (g : G) (s : PassState Refiner Policy) (limit looks : Nat)
    (seen : List Prospect) (r : RefinePass Policy) : Prop where
  lasts : r.state.life.Lasts looks
  advanced : Advanced p g s seen (payable p s seen) r.state
  within : (payable p s seen).length ≤ limit
  budget_eq : r.budget =
    { limit := Int64.ofNat limit, used := Int64.ofNat (payable p s seen).length }
  satisfied_eq : r.satisfied = seen.all (Prospect.admitted p s.policy)

/-- A pass whose steps ran out at a site, which it has asked about but not narrowed. -/
structure Overdrawn (p : Program) (g : G) (s : PassState Refiner Policy) (limit : Nat)
    (seen : List Prospect) (c : Prospect) (r : RefinePass Policy) : Prop where
  advanced : Advanced p g s (seen ++ [c]) (payable p s seen) r.state
  admitted : c.admitted p s.policy
  length_eq : (payable p s seen).length = limit
  budget_eq : r.budget = { limit := Int64.ofNat limit, used := Int64.ofNat (limit + 1) }

/-- What going over some sites may come to: they are added to those seen, or the steps
    run out at one of them. -/
def Reads (p : Program) (g : G) (s : PassState Refiner Policy) (limit looks : Nat)
    (seen sites : List Prospect) (outcome : Option (PassError EndCause) × RefinePass Policy) :
    Prop :=
  (∃ r, outcome = (none, r) ∧ Spent p g s limit looks (seen ++ sites) r) ∨
    ∃ before c after r, sites = before ++ c :: after ∧ outcome = (some .outOfBudget, r) ∧
      Overdrawn p g s limit (seen ++ before) c r

/-- What was read before may be counted with what is read now. -/
theorem Reads.prepend {first sites : List Prospect}
    {outcome : Option (PassError EndCause) × RefinePass Policy}
    (h : Reads p g s limit looks (seen ++ first) sites outcome) :
    Reads p g s limit looks seen (first ++ sites) outcome := by
  rcases h with ⟨r, hout, hr⟩ | ⟨before, c, after, r, rfl, hout, hr⟩
  · rw [List.append_assoc] at hr
    exact Or.inl ⟨r, hout, hr⟩
  · rw [List.append_assoc] at hr
    exact Or.inr ⟨first ++ before, c, after, r, by rw [List.append_assoc], hout, hr⟩

/-- What holds of each visit of a scan holds of the scan. A visit may take some looks, and it
    may rely on what was seen and what it has to read being part of the list. -/
theorem Spent.scan {α : Type}
    {visit : α → RefinePass Policy → Option (PassError EndCause) × RefinePass Policy}
    {sites : α → List Prospect} (cost : Nat)
    (hvisit : ∀ a seen rest looks r, prospects p g s = seen ++ (sites a ++ rest) →
      Spent p g s limit (looks + cost) seen r →
      Reads p g s limit looks seen (sites a) (visit a r)) (l : List α) :
    ∀ {seen rest looks r}, prospects p g s = seen ++ (l.flatMap sites ++ rest) →
      Spent p g s limit (looks + cost * l.length) seen r →
      Reads p g s limit looks seen (l.flatMap sites) (scan visit l r) := by
  induction l with
  | nil =>
      intro seen rest looks r _ h
      exact Or.inl ⟨r, rfl, by rwa [List.flatMap_nil, List.append_nil]⟩
  | cons a l ih =>
      intro seen rest looks r hall h
      rw [List.flatMap_cons, List.append_assoc] at hall
      rw [List.length_cons, Nat.mul_succ, ← Nat.add_assoc] at h
      rw [List.flatMap_cons]
      -- What the first visit has seen counts as seen before for the others.
      rcases hvisit a seen _ _ r hall h with
        ⟨r', hnext, hr'⟩ | ⟨before, c, after, r', hsites, hends, hr'⟩
      · rw [CallAtlas.scan, hnext]
        rw [← List.append_assoc] at hall
        exact (ih hall hr').prepend
      · rw [CallAtlas.scan, hends]
        refine Or.inr ⟨before, c, after ++ l.flatMap sites, r', ?_, rfl, hr'⟩
        rw [hsites, List.append_assoc, List.cons_append]

/-- A question about a site is one about its field, and the policy remembers it. -/
theorem admitsOrigin_eq (p : Program) (q : Policy) (c : Prospect) :
    admitsOrigin p q c.call.operation.origin = (c.admitted p q, questioned p q [c]) := by
  have horigin : c.call.operation.origin.field? = c.field? := rfl
  simp only [admitsOrigin, horigin, Prospect.admitted, questioned, List.filterMap_cons]
  cases c.field? with
  | none => rfl
  | some f => rfl

/-- A site that there is nothing to decide about is passed by. -/
theorem visitSite_of_none (h : prospect? p r.state n caller site = none) :
    visitSite p g n caller site r = (none, r) := by
  unfold visitSite
  by_cases hskip : (!site.kind.isOverriding || r.state.query.narrowed.contains (n.id, site)) = true
  · rw [if_pos hskip]
  rw [if_neg hskip]
  simp only [Bool.or_eq_true, Bool.not_eq_true', not_or, Bool.not_eq_false,
    Bool.not_eq_true] at hskip
  cases hcalls : r.state.policy.calls.shouldRefine n site with
  | false => simp only [RefinementPolicy.admitsSite, hcalls]
  | true =>
      simp only [RefinementPolicy.admitsSite, hcalls]
      cases hinstr : p.siteInstruction? caller site.pc with
      | none => rfl
      | some e =>
          rcases e with ⟨i, position⟩
          cases hcall : i.operation.isCall with
          | false => simp only [hcall, Bool.not_false, if_true]
          | true =>
              -- Nothing stands in the way of deciding about this one.
              have hsome : prospect? p r.state n caller site =
                  some ⟨n, caller, site, i, position⟩ :=
                prospect?_eq_some_iff.2 ⟨hskip.1, hskip.2, hcalls, hinstr, hcall, rfl, rfl, rfl⟩
              rw [h] at hsome
              cases hsome

/-- At a site to decide about, the policy is asked about the field, and then a step is taken. -/
theorem visitSite_of_some (h : prospect? p r.state n caller site = some c) :
    visitSite p g n caller site r =
      let policy := questioned p r.state.policy [c]
      if c.admitted p r.state.policy then
        let budget := (r.budget.charge 1).1
        if (r.budget.charge 1).2 then
          let query := { r.state.query with
            narrowed := r.state.query.narrowed.insert c.key (c.kept p g) }
          (none, { r with state := { r.state with policy, query }, budget })
        else (some .outOfBudget, { r with state := { r.state with policy }, budget })
      else
        let query := { r.state.query with declined := r.state.query.declined + 1 }
        (none, { r with state := { r.state with policy, query }, satisfied := false }) := by
  rcases prospect?_eq_some_iff.1 h with ⟨hkind, hnew, hcalls, hinstr, hcall, rfl, rfl, rfl⟩
  simp only [visitSite, hkind, hnew, RefinementPolicy.admitsSite, hcalls, hinstr, hcall,
    admitsOrigin_eq, Bool.not_true, Bool.or_self, Bool.false_eq_true, if_false, Bool.not_eq_true']
  cases c.admitted p r.state.policy with
  | false => rfl
  | true =>
      rcases r.budget.charge 1 with ⟨budget, enough⟩
      cases enough with
      | false => rfl
      | true => rfl

theorem payable_append (p : Program) (s : PassState Refiner Policy) (seen rest : List Prospect) :
    payable p s (seen ++ rest) = payable p s seen ++ payable p s rest :=
  List.filter_append ..

theorem payable_cons_of_admitted {rest : List Prospect} (hc : c.admitted p s.policy) :
    payable p s (c :: rest) = c :: payable p s rest :=
  List.filter_cons_of_pos hc

theorem payable_cons_of_declined {rest : List Prospect} (hc : c.admitted p s.policy = false) :
    payable p s (c :: rest) = payable p s rest :=
  List.filter_cons_of_neg (by rw [hc]; exact Bool.false_ne_true)

section

variable (hg : CallGraph.Lawful g) (hlimit : (limit : Int) < Word.bound)
  (hfits : (limit : Int) + 1 < Word.bound ∨ ((openSites p g s).length : Int) < Word.bound)

include hfits in
/-- The steps that a pass counts fit into a word. Either one step more than the limit
    does, or the number of open sites does, and the count exceeds neither. -/
theorem Spent.room {rest : List Prospect} (h : Spent p g s limit looks seen r)
    (hall : prospects p g s = seen ++ c :: rest) (hc : c.admitted p s.policy) :
    ((payable p s seen).length : Int) + 1 < Word.bound := by
  have hwithin := h.within
  rcases hfits with hfits | hfits
  · omega
  · rw [openSites, hall, payable_append, payable_cons_of_admitted hc, List.length_append,
      List.length_cons] at hfits
    omega

include hg in
/-- A site that is still to be seen is still to decide about: the pass itself has not narrowed
    it, since no site is listed twice. -/
theorem Spent.prospect?_eq {rest : List Prospect} (h : Spent p g s limit looks seen r)
    (hall : prospects p g s = seen ++ c :: rest) (hc : prospect? p s n caller site = some c) :
    prospect? p r.state n caller site = some c := by
  have hapart := prospects_pairwise hg p s
  rw [hall] at hapart
  rw [h.advanced.prospect?_eq, hc]
  refine Option.filter_eq_some_iff.2 ⟨rfl, decide_eq_true fun hmem => ?_⟩
  rcases List.mem_map.1 hmem with ⟨d, hd, hkey⟩
  exact (List.pairwise_append.1 hapart).2.2 d (List.mem_of_mem_filter hd) c List.mem_cons_self hkey

include hg hlimit hfits in
/-- A visit of a site to decide about adds it to those seen, or ends the pass. There are
    three cases: the site is turned down, it is paid for and narrowed, or the step is
    not granted. -/
theorem Spent.visitSite {rest : List Prospect} (h : Spent p g s limit looks seen r)
    (hall : prospects p g s = seen ++ c :: rest) (hc : prospect? p s n caller site = some c) :
    Reads p g s limit looks seen [c] (visitSite p g n caller site r) := by
  have hpolicy : questioned p r.state.policy [c] = questioned p s.policy (seen ++ [c]) := by
    rw [h.advanced.policy_eq, questioned_questioned]
  rw [visitSite_of_some (h.prospect?_eq hg hall hc), h.advanced.admitted_eq, hpolicy]
  cases hadmitted : c.admitted p s.policy with
  | false =>
      -- The site is turned down, which costs nothing.
      have hsame : payable p s (seen ++ [c]) = payable p s seen := by
        rw [payable_append, payable_cons_of_declined hadmitted]
        exact List.append_nil _
      refine Or.inl ⟨_, rfl, h.lasts, ⟨rfl, ?_⟩, ?_, ?_, ?_⟩
      · rw [hsame]
        exact h.advanced.narrowed_eq
      · rw [hsame]
        exact h.within
      · rw [hsame]
        exact h.budget_eq
      · simp [hadmitted]
  | true =>
      have hmore : payable p s (seen ++ [c]) = payable p s seen ++ [c] := by
        rw [payable_append, payable_cons_of_admitted hadmitted]
        rfl
      rw [h.budget_eq, Budget.charge_one hlimit (h.room hfits hall hadmitted)]
      by_cases hstep : (payable p s seen).length + 1 ≤ limit
      · simp only [hstep, decide_true, if_true]
        refine Or.inl ⟨_, rfl, h.lasts, ⟨rfl, ?_⟩, ?_, ?_, ?_⟩
        · rw [hmore, narrowAll_concat, ← h.advanced.narrowed_eq]
        · rw [hmore, List.length_append, List.length_singleton]
          exact hstep
        · rw [hmore, List.length_append, List.length_singleton]
        · simp [hadmitted, h.satisfied_eq]
      · -- The step was taken, so it is counted, but it was not granted.
        simp only [hstep, decide_false, if_true]
        have hspent : (payable p s seen).length = limit := by
          have hwithin := h.within
          omega
        refine Or.inr ⟨[], c, [], _, rfl, rfl, ?_⟩
        rw [List.append_nil]
        exact ⟨⟨rfl, h.advanced.narrowed_eq⟩, hadmitted, hspent, by rw [hspent]⟩

include hg hlimit hfits in
/-- A visit of a node takes one look, and goes over the sites of the node. -/
theorem Spent.visitNode {rest : List Prospect} (h : Spent p g s limit (looks + 1) seen r)
    (hall : prospects p g s = seen ++ (prospectsOf p g s n ++ rest)) :
    Reads p g s limit looks seen (prospectsOf p g s n) (visitNode p g n r) := by
  rcases h.lasts.poll with ⟨life, hpoll, hlasts⟩
  -- The look changes the lifetime alone.
  have hlooked : Spent p g s limit looks seen { r with state := { r.state with life } } :=
    ⟨hlasts, ⟨h.advanced.policy_eq, h.advanced.narrowed_eq⟩, h.within, h.budget_eq, h.satisfied_eq⟩
  unfold Refiner.visitNode
  rw [hpoll]
  cases hunit : n.unit.function? with
  | none =>
      rw [prospectsOf_of_none hunit]
      exact Or.inl ⟨_, rfl, by rwa [List.append_nil]⟩
  | some caller =>
      rw [prospectsOf_of_some hunit, List.filterMap_eq_flatMap_toList] at hall ⊢
      refine Spent.scan 0 (fun site seen rest looks r hall hr => ?_) _ hall (by rwa [Nat.zero_mul])
      cases hc : prospect? p s n caller site with
      | none =>
          have hnow : prospect? p r.state n caller site = none := by
            rw [hr.advanced.prospect?_eq, hc]
            rfl
          exact Or.inl ⟨r, visitSite_of_none hnow, by rwa [Option.toList_none, List.append_nil]⟩
      | some c =>
          -- The site is still to decide about, since the pass has not narrowed it.
          rw [hc] at hall
          exact hr.visitSite hg hlimit hfits hall hc

end

end Refiner

end CallAtlas
