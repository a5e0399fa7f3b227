import CallAtlas.Program.Refiner
import CallAtlas.Proofs.Edits
import CallAtlas.Proofs.Lawful

/-!
# Hidden Edges are Refuted

Refinement takes calls away from everything that comes after it, so an edge must not
be hidden unless variable type analysis speaks against it at every site that carries
it. The sites of one edge may have been narrowed in different passes, under different
budgets and by a policy that has changed in between, and some passes may have ended
early. This module says of each of them when it was narrowed and what the policy
answered then.

A pass is a scan over nodes, and reading a node is a scan over its sites. `Meets` names
the moments of a scan: an element together with the running value before it. Whatever is
found in the table of narrowed sites was put there at such a moment and stays there. So
the code is looked at once, for what a visit of a site can do, and the rest of the
argument is about moments.

Nothing is assumed of the policy. It may be of any type and may change with every
question.

## Main definitions

* `Meets`: The moments of a scan.
* `Program.Refutes`: Variable type analysis speaks against a callee of an instruction.
* `Refiner.Looks`: The moments of a pass at which it looks at a site.
* `Refiner.Admits`: A site is to be narrowed at such a moment.
* `Refiner.Event`, `Refiner.afterAll`: Passes and preparations for passes, in any order.
* `Refiner.Admitted`: A site was to be narrowed in the course of some events.

## Theorems

* `scan_keeps`, `Meets.scan_reaches`: What a scan keeps, and what it reaches.
* `Refiner.narrowed_visitSite`: What a visit of a site does to the table.
* `Refiner.pass_keeps`: What every look at a site keeps, a pass keeps.
* `Refiner.admitted_of_narrowed`, `Refiner.Admitted.contains_narrowed`: The narrowed sites
  are those that were admitted.
* `Refiner.narrowed_iff`: The targets that a site loses are refuted.
* `Refiner.hides_overlay_iff_refuted`: An edge is hidden exactly if it is refuted at each
  of its sites.
-/

namespace CallAtlas

/-! ## The moments of a scan -/

section Scan

variable {α σ ε : Type} {visit : α → σ → Option ε × σ}

/-- In the course of a scan an element is visited, and the running value is then the last one. -/
inductive Meets (visit : α → σ → Option ε × σ) : List α → σ → α → σ → Prop
  | head {a : α} {rest : List α} {s : σ} : Meets visit (a :: rest) s a s
  | tail {a b : α} {rest : List α} {s s' t : σ} : visit a s = (none, s') →
      Meets visit rest s' b t → Meets visit (a :: rest) s b t

theorem Meets.mem {l : List α} {s t : σ} {a : α} (h : Meets visit l s a t) : a ∈ l := by
  induction h with
  | head => exact List.mem_cons_self
  | tail _ _ ih => exact List.mem_cons_of_mem _ ih

/-- What every visit of a scan keeps, the scan keeps. Only visits that the scan comes to
    have to keep it, in the states in which it comes to them. -/
theorem scan_keeps {motive : σ → Prop} : ∀ (l : List α) (s : σ), motive s →
    (∀ a t, Meets visit l s a t → motive t → motive (visit a t).2) →
    motive (scan visit l s).2 := by
  intro l
  induction l with
  | nil =>
      intro s hs _
      exact hs
  | cons a rest ih =>
      intro s hs hvisit
      have hfirst := hvisit a s .head hs
      unfold scan
      rcases hv : visit a s with ⟨ended, s'⟩
      rw [hv] at hfirst
      cases ended with
      -- The scan ends with the first visit, or the rest is scanned from where that leads.
      | some e => exact hfirst
      | none => exact ih s' hfirst fun b t hb ht => hvisit b t (.tail hv hb) ht

/-- What is reached at some moment of a scan and kept by every visit, the scan reaches. -/
theorem Meets.scan_reaches {motive : σ → Prop} {l : List α} {s t : σ} {a : α}
    (h : Meets visit l s a t) (hat : motive (visit a t).2)
    (hvisit : ∀ b t, motive t → motive (visit b t).2) : motive (scan visit l s).2 := by
  induction h with
  | @head a rest s =>
      unfold scan
      rcases hv : visit a s with ⟨ended, s'⟩
      rw [hv] at hat
      -- From the moment on that it is reached, it is kept.
      cases ended with
      | some e => exact hat
      | none => exact scan_keeps rest s' hat fun b t _ ht => hvisit b t ht
  | tail hv _ ih =>
      unfold scan
      rw [hv]
      exact ih hat

end Scan

/-- Variable type analysis looked at a function and lists no callee for one of its
    instructions that counts as the given one. -/
def Program.Refutes (p : Program) (caller position callee : Nat) : Prop :=
  caller ∈ p.analysed ∧
    ∀ c, (caller, position, c) ∈ p.callees → p.calleeKey c ≠ p.calleeKey callee

/-- The analysis lists a callee if it lists one that counts as the same. -/
theorem Program.lists_iff {p : Program} {caller position callee : Nat} :
    p.lists caller position callee ↔
      ∃ c, (caller, position, c) ∈ p.callees ∧ p.calleeKey c = p.calleeKey callee := by
  simp only [lists, List.any_eq_true, Bool.and_eq_true, decide_eq_true_eq, Prod.exists]
  constructor
  · rintro ⟨_, _, c, hc, ⟨rfl, rfl⟩, hkey⟩
    exact ⟨c, hc, hkey⟩
  · rintro ⟨c, hc, hkey⟩
    exact ⟨caller, position, c, hc, ⟨rfl, rfl⟩, hkey⟩

/-- Whether the analysis speaks against a callee, as the program checks it. -/
theorem Program.refutes_iff {p : Program} {caller position callee : Nat} :
    p.Refutes caller position callee ↔
      p.analysed.contains caller ∧ p.lists caller position callee = false := by
  rw [Program.Refutes, List.contains_iff_mem, ← Bool.not_eq_true, Program.lists_iff]
  simp only [not_exists, not_and, ne_eq]

namespace Overlay

/-- What is hidden after a list of edges was hidden one by one. -/
theorem hides_foldl_hide : ∀ (es : List (Node × Node)) (o : Overlay) {a b : Int},
    (es.foldl (fun o e => o.hide e.1.id e.2.id) o).hides a b ↔
      o.hides a b ∨ ∃ e ∈ es, e.1.id = a ∧ e.2.id = b := by
  intro es
  induction es with
  | nil =>
      intro o a b
      simp
  | cons e rest ih =>
      intro o a b
      rw [List.foldl_cons, ih, hides_hide, or_assoc, List.exists_mem_cons_iff,
        eq_comm (a := a), eq_comm (a := b)]

end Overlay

namespace Refiner

variable {G π : Type} [CallGraph G] [RefinementPolicy π] {p : Program} {g : G} {n : Node}
  {caller : Nat} {site : CallSite} {i : Instruction} {position : Nat}

/-! ## What a visit of a site does -/

/-- A site is narrowed at a moment of a pass, unless it was before: it chooses among
    overrides and denotes a call, the policy admits the site and then the field, if the
    receiver comes from one, and there is a step left. -/
structure Admits (p : Program) (n : Node) (caller : Nat) (site : CallSite) (r : RefinePass π)
    (i : Instruction) (position : Nat) : Prop where
  overriding : site.kind.isOverriding
  instruction : p.siteInstruction? caller site.pc = some (i, position)
  call : i.operation.isCall
  admitsSite : (RefinementPolicy.admitsSite r.state.policy n site).1
  admitsField : ∀ f, i.operation.origin.field? = some f →
    (RefinementPolicy.admitsField p.typeHierarchy
      (RefinementPolicy.admitsSite r.state.policy n site).2 f).1
  paid : (r.budget.charge 1).2

/-- The field that a receiver comes from is admitted, if there is one. -/
theorem admitsOrigin_iff (p : Program) (q : π) (origin : Origin) :
    (admitsOrigin p q origin).1 ↔
      ∀ f, origin.field? = some f → (RefinementPolicy.admitsField p.typeHierarchy q f).1 := by
  unfold admitsOrigin
  cases origin.field? with
  | none => simp
  | some f => simp

/-- A visit narrows a site if it is admitted and was not narrowed, and else leaves the
    table of narrowed sites alone. The cases follow the code in the order of its checks,
    and each check that fails contradicts one condition for being admitted. -/
theorem narrowed_visitSite (p : Program) (g : G) (n : Node) (caller : Nat) (site : CallSite)
    (r : RefinePass π) :
    ((visitSite p g n caller site r).2.state.query.narrowed = r.state.query.narrowed ∧
        (r.state.query.narrowed.contains (n.id, site) ∨
          ∀ i position, ¬Admits p n caller site r i position)) ∨
      ∃ i position, Admits p n caller site r i position ∧
        (visitSite p g n caller site r).2.state.query.narrowed =
          r.state.query.narrowed.insert (n.id, site) (narrow p g n caller position site) := by
  unfold visitSite
  by_cases hskip : (!site.kind.isOverriding || r.state.query.narrowed.contains (n.id, site)) = true
  · rw [if_pos hskip]
    rw [Bool.or_eq_true, Bool.not_eq_true'] at hskip
    refine Or.inl ⟨rfl, hskip.symm.imp_right fun hkind i position h => ?_⟩
    exact absurd h.overriding (by simp [hkind])
  have hkind : site.kind.isOverriding := by
    simp only [Bool.or_eq_true, Bool.not_eq_true', not_or, Bool.not_eq_false] at hskip
    exact hskip.1
  rw [if_neg hskip]
  rcases hsite : RefinementPolicy.admitsSite r.state.policy n site with ⟨admitted, q⟩
  cases admitted with
  | false =>
      refine Or.inl ⟨rfl, Or.inr fun i position h => ?_⟩
      exact absurd h.admitsSite (by simp [hsite])
  | true =>
      cases hinstr : p.siteInstruction? caller site.pc with
      | none =>
          refine Or.inl ⟨rfl, Or.inr fun i position h => ?_⟩
          exact absurd h.instruction (by simp [hinstr])
      | some entry =>
          rcases entry with ⟨i, position⟩
          -- What is admitted can be nothing but this instruction.
          have hentry : ∀ i' position', Admits p n caller site r i' position' → i' = i := by
            intro i' position' h
            have hsame := h.instruction
            rw [hinstr, Option.some.injEq, Prod.mk.injEq] at hsame
            exact hsame.1.symm
          cases hcall : i.operation.isCall with
          | false =>
              simp only [hcall]
              refine Or.inl ⟨rfl, Or.inr fun i' position' h => ?_⟩
              exact absurd h.call (by simp [hentry _ _ h, hcall])
          | true =>
              simp only [hcall, Bool.not_true, Bool.false_eq_true, if_false]
              -- The field is asked about after the site, by the policy the site has left.
              rcases horigin : admitsOrigin p q i.operation.origin with ⟨admitted, q'⟩
              have hfield := admitsOrigin_iff p q i.operation.origin
              rw [horigin] at hfield
              cases admitted with
              | false =>
                  refine Or.inl ⟨rfl, Or.inr fun i' position' h => ?_⟩
                  have hadmits := h.admitsField
                  rw [hentry _ _ h, hsite] at hadmits
                  exact absurd (hfield.2 hadmits) (by simp)
              | true =>
                  rcases hcharge : r.budget.charge 1 with ⟨budget, enough⟩
                  cases enough with
                  | false =>
                      refine Or.inl ⟨rfl, Or.inr fun i' position' h => ?_⟩
                      exact absurd h.paid (by simp [hcharge])
                  | true =>
                      refine Or.inr ⟨i, position, ⟨hkind, hinstr, hcall, ?_, ?_, ?_⟩, rfl⟩
                      · rw [hsite]
                      · rw [hsite]
                        exact hfield.1 rfl
                      · rw [hcharge]

/-- A site that was narrowed stays so when another one is visited. -/
theorem contains_narrowed_visitSite {r : RefinePass π} {key : Int × CallSite}
    (h : r.state.query.narrowed.contains key) :
    (visitSite p g n caller site r).2.state.query.narrowed.contains key := by
  rcases narrowed_visitSite p g n caller site r with ⟨hsame, _⟩ | ⟨_, _, _, hnew⟩
  · rw [hsame]
    exact h
  · rw [hnew, Table.contains_insert]
    exact Or.inr h

/-- A site that is admitted is narrowed after its visit, if it was not before. -/
theorem contains_narrowed_of_admits {r : RefinePass π}
    (h : Admits p n caller site r i position) :
    (visitSite p g n caller site r).2.state.query.narrowed.contains (n.id, site) := by
  rcases narrowed_visitSite p g n caller site r with ⟨hsame, hdone | hnot⟩ | ⟨_, _, _, hnew⟩
  · rw [hsame]
    exact hdone
  · exact absurd h (hnot i position)
  · rw [hnew, Table.contains_insert]
    exact Or.inl rfl

/-! ## What a pass does -/

/-- In the course of a pass a site of a node is looked at, and the pass has then come to
    the last one. -/
def Looks (p : Program) (g : G) (start : RefinePass π) (n : Node) (caller : Nat)
    (site : CallSite) (t : RefinePass π) : Prop :=
  ∃ r life, Meets (visitNode p g) (CallGraph.nodes g) start n r ∧
    r.state.life.poll = (none, life) ∧ n.unit.function? = some caller ∧
    Meets (visitSite p g n caller) (CallGraph.callSites g n)
      { r with state := { r.state with life } } site t

/-- What a pass leaves behind is what its scan does, also if it was cut short. -/
theorem pass_state (p : Program) (g : G) (budget : Budget) (s : PassState Refiner π) :
    (pass p g budget s).2.2 =
      (scan (visitNode p g) (CallGraph.nodes g) { state := s, budget }).2.state := by
  unfold pass
  rcases scan (visitNode p g) (CallGraph.nodes g) { state := s, budget } with ⟨_ | _, _⟩
  · rfl
  · rfl

/-- What the visits of its sites keep of the table, the visit of a node keeps. -/
theorem visitNode_keeps {motive : Table (Int × CallSite) IdSet → Prop} {r : RefinePass π}
    (hr : motive r.state.query.narrowed)
    (hsite : ∀ life caller site t, r.state.life.poll = (none, life) →
      n.unit.function? = some caller →
      Meets (visitSite p g n caller) (CallGraph.callSites g n)
        { r with state := { r.state with life } } site t →
      motive t.state.query.narrowed →
      motive (visitSite p g n caller site t).2.state.query.narrowed) :
    motive (visitNode p g n r).2.state.query.narrowed := by
  unfold visitNode
  rcases hpoll : r.state.life.poll with ⟨cause, life⟩
  cases cause with
  | some cause => exact hr
  | none =>
      cases hunit : n.unit.function? with
      | none => exact hr
      | some caller =>
          exact scan_keeps (motive := fun t : RefinePass π => motive t.state.query.narrowed) _ _ hr
            fun site t hmeets ht => hsite life caller site t hpoll hunit hmeets ht

/-- What every look at a site keeps of the table, a pass keeps. The two scans, of nodes
    and of the sites of each, are dealt with here and not again. -/
theorem pass_keeps {motive : Table (Int × CallSite) IdSet → Prop} {budget : Budget}
    {s : PassState Refiner π} (hs : motive s.query.narrowed)
    (hsite : ∀ n caller site t, Looks p g { state := s, budget } n caller site t →
      motive t.state.query.narrowed →
      motive (visitSite p g n caller site t).2.state.query.narrowed) :
    motive (pass p g budget s).2.2.query.narrowed := by
  rw [pass_state]
  refine scan_keeps (motive := fun r : RefinePass π => motive r.state.query.narrowed) _ _ hs
    fun n r hmeets hr => visitNode_keeps hr fun life caller site t hpoll hunit hlook ht => ?_
  exact hsite n caller site t ⟨r, life, hmeets, hpoll, hunit, hlook⟩ ht

/-- What is found in the table after a pass was found there before or was put there at a
    moment of the pass. -/
theorem find?_narrowed_pass (p : Program) (g : G) (budget : Budget) (s : PassState Refiner π)
    (key : Int × CallSite) (kept : IdSet) :
    (pass p g budget s).2.2.query.narrowed.find? key = some kept →
      s.query.narrowed.find? key = some kept ∨
        ∃ n caller t i position, n.id = key.1 ∧
          Looks p g { state := s, budget } n caller key.2 t ∧
          Admits p n caller key.2 t i position ∧ kept = narrow p g n caller position key.2 := by
  refine pass_keeps (motive := fun narrowed => narrowed.find? key = some kept → _) Or.inl
    fun n caller site t hlooks ht hfind => ?_
  rcases narrowed_visitSite p g n caller site t with ⟨hsame, _⟩ | ⟨i, position, hadmits, hnew⟩
  · rw [hsame] at hfind
    exact ht hfind
  · -- The table was written at this visit, so the entry is the new one or an old one.
    rw [hnew, Table.find?_insert] at hfind
    by_cases hkey : (n.id, site) = key
    · subst hkey
      rw [if_pos rfl, Option.some.injEq] at hfind
      exact Or.inr ⟨n, caller, t, i, position, rfl, hlooks, hadmits, hfind.symm⟩
    · rw [if_neg hkey] at hfind
      exact ht hfind

/-- A site that is admitted at a moment of a pass is narrowed after it. It is narrowed
    at that moment, and what comes after in the pass leaves it so. -/
theorem Looks.contains_narrowed {budget : Budget} {s : PassState Refiner π} {t : RefinePass π}
    (h : Looks p g { state := s, budget } n caller site t)
    (hadmits : Admits p n caller site t i position) :
    (pass p g budget s).2.2.query.narrowed.contains (n.id, site) := by
  rcases h with ⟨r, life, hmeets, hpoll, hunit, hsite⟩
  rw [pass_state]
  refine hmeets.scan_reaches (motive := fun r => r.state.query.narrowed.contains (n.id, site))
    ?_ fun m r hr => visitNode_keeps (motive := fun narrowed => narrowed.contains (n.id, site)) hr
      fun _ _ _ _ _ _ _ ht => contains_narrowed_visitSite ht
  unfold visitNode
  rw [hpoll, hunit]
  exact hsite.scan_reaches (motive := fun r => r.state.query.narrowed.contains (n.id, site))
    (contains_narrowed_of_admits hadmits) fun site t ht => contains_narrowed_visitSite ht

/-! ## Histories of a refiner -/

/-- What may happen to a refiner: a pass with a number, a budget and a caller that waits
    for some time, or the policy being prepared for another pass. -/
inductive Event where
  | query (number : Nat) (budget : Budget) (life : Lifetime)
  | nextPass

/-- What an event leaves behind. -/
def after (p : Program) (g : G) (s : PassState Refiner π) : Event → PassState Refiner π
  | .query number budget life => (query p g number budget { s with life }).2
  | .nextPass => { s with policy := (RefinementPolicy.nextPass s.policy).1 }

/-- What events leave behind, beginning with nothing narrowed. -/
def afterAll (p : Program) (g : G) (policy : π) (es : List Event) : PassState Refiner π :=
  es.foldl (after p g) { policy, life := .unbounded, query := {} }

theorem afterAll_concat (p : Program) (g : G) (policy : π) (es : List Event) (e : Event) :
    afterAll p g policy (es ++ [e]) = after p g (afterAll p g policy es) e := by
  rw [afterAll, List.foldl_append, List.foldl_cons, List.foldl_nil, ← afterAll]

/-- In the course of some events, a site of a node was admitted. -/
def Admitted (p : Program) (g : G) (policy : π) (es : List Event) (n : Node) (caller : Nat)
    (site : CallSite) (i : Instruction) (position : Nat) : Prop :=
  ∃ before number budget life later t,
    es = before ++ Event.query number budget life :: later ∧
    Looks p g { state := { afterAll p g policy before with life }, budget } n caller site t ∧
    Admits p n caller site t i position

/-- What was admitted remains so when more happens. -/
theorem Admitted.concat {policy : π} {es : List Event}
    (h : Admitted p g policy es n caller site i position) (e : Event) :
    Admitted p g policy (es ++ [e]) n caller site i position := by
  rcases h with ⟨before, number, budget, life, later, t, rfl, hlooks, hadmits⟩
  exact ⟨before, number, budget, life, later ++ [e], t, by simp, hlooks, hadmits⟩

theorem Admitted.exists_admits {policy : π} {es : List Event}
    (h : Admitted p g policy es n caller site i position) :
    ∃ t : RefinePass π, Admits p n caller site t i position := by
  rcases h with ⟨_, _, _, _, _, t, _, _, hadmits⟩
  exact ⟨t, hadmits⟩

/-- A narrowed site was admitted, and it keeps what narrowing left of its targets. The
    induction takes events off the end: what is found after the last was found before it
    or came with it. -/
theorem admitted_of_narrowed {policy : π} {es : List Event} {key : Int × CallSite} {kept : IdSet}
    (h : (afterAll p g policy es).query.narrowed.find? key = some kept) :
    ∃ n caller i position, n ∈ CallGraph.nodes g ∧ n.id = key.1 ∧
      n.unit.function? = some caller ∧ Admitted p g policy es n caller key.2 i position ∧
      kept = narrow p g n caller position key.2 := by
  induction es using List.reverseRecOn with
  | nil => exact absurd h (by simp [afterAll])
  | append_singleton es e ih =>
      -- What was admitted before the last event was admitted.
      have hold : (afterAll p g policy es).query.narrowed.find? key = some kept →
          ∃ n caller i position, n ∈ CallGraph.nodes g ∧ n.id = key.1 ∧
            n.unit.function? = some caller ∧
            Admitted p g policy (es ++ [e]) n caller key.2 i position ∧
            kept = narrow p g n caller position key.2 := by
        intro hfind
        rcases ih hfind with ⟨n, caller, i, position, hn, hid, hunit, hadmitted, hkept⟩
        exact ⟨n, caller, i, position, hn, hid, hunit, hadmitted.concat e, hkept⟩
      rw [afterAll_concat] at h
      cases e with
      | nextPass => exact hold h
      | query number budget life =>
          -- The last event was a pass, and it has found the entry or made it.
          rcases find?_narrowed_pass p g budget _ _ _ h with hfind | hnew
          · exact hold hfind
          · rcases hnew with ⟨n, caller, t, i, position, hid, hlooks, hadmits, hkept⟩
            have hmoment := hlooks
            rcases hmoment with ⟨r, _, hmeets, _, hunit, _⟩
            exact ⟨n, caller, i, position, hmeets.mem, hid, hunit,
              ⟨es, number, budget, life, [], t, rfl, hlooks, hadmits⟩, hkept⟩

/-- A site that is narrowed stays so whatever happens. -/
theorem contains_narrowed_after {s : PassState Refiner π} (e : Event) {key : Int × CallSite}
    (h : s.query.narrowed.contains key) :
    (after p g s e).query.narrowed.contains key := by
  cases e with
  | nextPass => exact h
  | query number budget life =>
      exact pass_keeps (motive := fun narrowed => narrowed.contains key) h
        fun _ _ _ _ _ ht => contains_narrowed_visitSite ht

/-- A site that was admitted in the course of some events is narrowed after them. -/
theorem Admitted.contains_narrowed {policy : π} {es : List Event}
    (h : Admitted p g policy es n caller site i position) :
    (afterAll p g policy es).query.narrowed.contains (n.id, site) := by
  rcases h with ⟨before, number, budget, life, later, t, rfl, hlooks, hadmits⟩
  induction later using List.reverseRecOn with
  | nil =>
      rw [afterAll_concat]
      exact hlooks.contains_narrowed hadmits
  | append_singleton later e ih =>
      rw [← List.cons_append, ← List.append_assoc, afterAll_concat]
      exact contains_narrowed_after e ih

/-! ## Hidden edges -/

/-- A site keeps a target unless that is a function which variable type analysis speaks
    against. -/
theorem mem_narrow {i : Int} :
    i ∈ narrow p g n caller position site ↔
      ∃ m ∈ CallGraph.targets g n site, m.id = i ∧
        ∀ callee, m.unit.function? = some callee → ¬p.Refutes caller position callee := by
  rw [narrow, IdSet.mem_ofList, List.mem_map]
  simp only [List.mem_filter, and_assoc]
  refine exists_congr fun m => and_congr_right fun _ => ?_
  rw [and_comm]
  refine and_congr_right fun _ => ?_
  cases m.unit.function? with
  | none => simp
  | some callee =>
      simp only [Option.some.injEq, forall_eq', Program.refutes_iff]
      -- A function that was not analysed is not refuted.
      cases p.analysed.contains caller with
      | false => simp
      | true => simp

theorem hides_overlay {r : Refiner} {a b : Int} :
    (r.overlay g).hides a b ↔ ∃ e ∈ CallGraph.edges g, r.hides g e ∧ e.1.id = a ∧ e.2.id = b := by
  rw [overlay, Overlay.hides_foldl_hide]
  simp [Overlay.hides, Overlay.hiddenFrom, List.mem_filter, and_assoc]

/-- An edge is hidden if it has sites and none of them keeps the callee. -/
theorem hides_iff {r : Refiner} {e : Node × Node} :
    r.hides g e ↔ CallGraph.sitesBetween g e.1 e.2 ≠ [] ∧
      ∀ site ∈ CallGraph.sitesBetween g e.1 e.2,
        ∃ kept, r.narrowed.find? (e.1.id, site) = some kept ∧ e.2.id ∉ kept := by
  simp only [hides, Bool.and_eq_true, Bool.not_eq_true', List.isEmpty_eq_false_iff, List.all_eq_true]
  refine and_congr_right fun _ => forall₂_congr fun site _ => ?_
  cases r.narrowed.find? (e.1.id, site) with
  | none => simp
  | some kept => simp [IdSet.contains]

/-- After some events a target is lost to a site exactly if the site was admitted and
    variable type analysis speaks against the target. A site may be admitted more than
    once and is narrowed at the first time, but it denotes the same instruction every
    time. -/
theorem narrowed_iff (hg : CallGraph.Lawful g) {policy : π} {es : List Event} {a b : Node}
    (hb : b ∈ CallGraph.targets g a site) :
    (∃ kept, (afterAll p g policy es).query.narrowed.find? (a.id, site) = some kept ∧
        b.id ∉ kept) ↔
      ∃ caller callee i position, a.unit.function? = some caller ∧
        b.unit.function? = some callee ∧ Admitted p g policy es a caller site i position ∧
        p.Refutes caller position callee := by
  have hedge := hg.target_edge hb
  have hlost : ∀ {caller position}, b.id ∉ narrow p g a caller position site ↔
      ∃ callee, b.unit.function? = some callee ∧ p.Refutes caller position callee := by
    intro caller position
    rw [mem_narrow]
    constructor
    · intro h
      by_contra hnone
      exact h ⟨b, hb, rfl, fun callee hcallee href => hnone ⟨callee, hcallee, href⟩⟩
    · rintro ⟨callee, hcallee, href⟩ ⟨m, hm, hid, hkeeps⟩
      rw [hg.eq_of_id (hg.target_edge hm).2.1 hedge.2.1 hid] at hkeeps
      exact hkeeps callee hcallee href
  have hnode : ∀ {n}, n ∈ CallGraph.nodes g → n.id = a.id → n = a := fun hn hid =>
    hg.eq_of_id hn (hg.edge_left hedge.2.2) hid
  constructor
  · rintro ⟨kept, hfind, hlose⟩
    rcases admitted_of_narrowed hfind with ⟨n, caller, i, position, hn, hid, hunit, hadmitted, rfl⟩
    rw [hnode hn hid] at hunit hadmitted hlose
    rcases hlost.1 hlose with ⟨callee, hcallee, href⟩
    exact ⟨caller, callee, i, position, hunit, hcallee, hadmitted, href⟩
  · rintro ⟨caller, callee, i, position, hunit, hcallee, hadmitted, href⟩
    rcases Option.isSome_iff_exists.1 hadmitted.contains_narrowed with ⟨kept, hfind⟩
    refine ⟨kept, hfind, ?_⟩
    rcases admitted_of_narrowed hfind with ⟨n, caller', i', position', hn, hid, hunit', hold, rfl⟩
    rw [hnode hn hid] at hunit' hold ⊢
    -- The site denotes one instruction, so whenever it was narrowed it was at that position.
    rw [hunit, Option.some.injEq] at hunit'
    subst hunit'
    rcases hadmitted.exists_admits with ⟨_, hadmits⟩
    rcases hold.exists_admits with ⟨_, hfirst⟩
    have hsame := hfirst.instruction
    rw [hadmits.instruction, Option.some.injEq, Prod.mk.injEq] at hsame
    rw [← hsame.2]
    exact hlost.2 ⟨callee, hcallee, href⟩

/-- After any passes and preparations, an edge is hidden exactly if some site carries it
    and each site that does is a virtual or interface site which was admitted in some
    pass, and variable type analysis looked at the caller and does not list the callee
    there.

    The sites of an edge need not be admitted in the same pass. Until the last of them
    is, the edge is to be seen. -/
theorem hides_overlay_iff_refuted (hg : CallGraph.Lawful g) (policy : π) (es : List Event)
    (src dst : Int) :
    ((afterAll p g policy es).query.overlay g).hides src dst ↔
      ∃ a b, a.id = src ∧ b.id = dst ∧ CallGraph.hasEdge g a b ∧
        (∃ site, b ∈ CallGraph.targets g a site) ∧
        ∀ site, b ∈ CallGraph.targets g a site →
          (site.kind = .virtual ∨ site.kind = .interface) ∧
          ∃ caller callee i position, a.unit.function? = some caller ∧
            b.unit.function? = some callee ∧
            p.siteInstruction? caller site.pc = some (i, position) ∧ i.operation.isCall ∧
            Admitted p g policy es a caller site i position ∧
            p.Refutes caller position callee := by
  rw [hides_overlay]
  constructor
  · rintro ⟨⟨a, b⟩, hedge, hhides, hsrc, hdst⟩
    rcases hides_iff.1 hhides with ⟨hsome, hall⟩
    -- A hidden edge has a site, and all its sites are narrowed without the callee.
    rcases List.exists_mem_of_ne_nil _ hsome with ⟨site₀, hsite₀⟩
    refine ⟨a, b, hsrc, hdst, (hg.mem_edges.1 hedge).2.2,
      ⟨site₀, hg.mem_sitesBetween.1 hsite₀⟩, fun site hsite => ?_⟩
    rcases (narrowed_iff hg hsite).1 (hall site (hg.mem_sitesBetween.2 hsite)) with
      ⟨caller, callee, i, position, hcaller, hcallee, hadmitted, href⟩
    rcases hadmitted.exists_admits with ⟨_, hadmits⟩
    exact ⟨Dispatch.isOverriding_iff.1 hadmits.overriding, caller, callee, i, position, hcaller,
      hcallee, hadmits.instruction, hadmits.call, hadmitted, href⟩
  · rintro ⟨a, b, hsrc, hdst, hedge, ⟨site₀, hsite₀⟩, hall⟩
    refine ⟨(a, b), hg.mem_edges.2 ⟨hg.edge_left hedge, (hg.target_edge hsite₀).2.1, hedge⟩,
      hides_iff.2 ⟨List.ne_nil_of_mem (hg.mem_sitesBetween.2 hsite₀), fun site hsite => ?_⟩,
      hsrc, hdst⟩
    -- The sites of the edge are those with the callee for a target, so each of them is covered.
    have hb := hg.mem_sitesBetween.1 hsite
    rcases (hall site hb).2 with
      ⟨caller, callee, i, position, hcaller, hcallee, _, _, hadmitted, href⟩
    exact (narrowed_iff hg hb).2 ⟨caller, callee, i, position, hcaller, hcallee, hadmitted, href⟩

/-! ## An edge of two sites, narrowed in different passes -/

/-- A function calls a method of an interface twice, first on what it loads from a
    field. The analysis finds that only one of the two implementations is ever called. -/
def zoo : Program where
  functions := #[
    { label := "main"
      code := [⟨.callInterface 0 (.fieldLoad "Zoo" "pet"), none⟩, ⟨.callInterface 0 .other, none⟩] },
    { label := "Dog.Speak" }, { label := "Cat.Speak" }]
  types := [⟨"Zoo", false, ["Zoo"], []⟩]
  analysed := [0]
  callees := [(0, 0, 2), (0, 1, 2)]

/-- The graph of the program, in which both implementations may be called at both sites. -/
def zooGraph : Graph :=
  let unit (f : Nat) (name : String) : CodeUnit := .function f ⟨name, "Speak", "()"⟩ name
  let node (f : Nat) (name : String) : Option Node :=
    some ⟨0, 2 + f, unit f name, .everywhere, .ordinary⟩
  let site (pc : Int) : CallSite := ⟨pc, ⟨"Animal", "Speak", "()"⟩, .interface⟩
  (Graph.fresh 0).afterAll
    [.findOrCreate (some (unit 0 "main")) (some .everywhere),
      .findOrCreate (some (unit 1 "Dog")) (some .everywhere),
      .findOrCreate (some (unit 2 "Cat")) (some .everywhere),
      .addCall (node 0 "main") (site 0) (node 1 "Dog"),
      .addCall (node 0 "main") (site 0) (node 2 "Cat"),
      .addCall (node 0 "main") (site 1) (node 1 "Dog"),
      .addCall (node 0 "main") (site 1) (node 2 "Cat")]

/-- The growing policy turns the field down at first. Of the later passes one is cut short and
    one runs out of steps. -/
theorem hides_overlay_iff_refuted_zoo :
    let policy : Policy := { fields := .tuned {}, calls := .always, schedule := .threePass }
    let short : List Event :=
      [.query 0 { limit := 5 } .unbounded, .query 1 { limit := 5 } { polls := some 2 }, .nextPass,
        .query 2 { limit := 0 } .unbounded]
    let long : List Event := short ++ [.query 3 { limit := 1 } .unbounded]
    ((afterAll zoo zooGraph policy short).query.overlay zooGraph).hides 2 3 = false ∧
      ((afterAll zoo zooGraph policy long).query.overlay zooGraph).hides 2 4 = false ∧
      ((afterAll zoo zooGraph policy long).query.overlay zooGraph).hides 2 3 ∧
      ∃ a b, a.id = 2 ∧ b.id = 3 ∧ ∀ site, b ∈ zooGraph.targets a site →
        ∃ caller callee i position, Admitted zoo zooGraph policy long a caller site i position ∧
          zoo.Refutes caller position callee := by
  intro policy short long
  have hg : zooGraph.Obtainable := ⟨0, _, rfl⟩
  have hhides : ((afterAll zoo zooGraph policy long).query.overlay zooGraph).hides 2 3 := by
    decide +kernel
  refine ⟨by decide +kernel, by decide +kernel, hhides, ?_⟩
  rcases (hides_overlay_iff_refuted hg.wellFormed.lawful policy long 2 3).1 hhides with
    ⟨a, b, ha, hb, _, _, hall⟩
  refine ⟨a, b, ha, hb, fun site hsite => ?_⟩
  rcases (hall site hsite).2 with ⟨caller, callee, i, position, _, _, _, _, hadmitted, href⟩
  exact ⟨caller, callee, i, position, hadmitted, href⟩

end Refiner

end CallAtlas
