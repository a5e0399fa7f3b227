import CallAtlas.Program.Facts

/-!
# Types That Were Taken In

The growing policy takes a type in so that its fields are refined from then on. Whether
they are is decided by assignment alone: a type is related to the set if its values may
be assigned to a type of the set, or the other way round. The policy does not look
whether the type is in the set itself. So a type is refined after it was taken in if it
may be assigned to itself, or if it happens to be related to another type of the set.

The types of a program as a hierarchy say nothing of a type that the program does not
hold: both directions fail there. The policy then turns the type down as it did before. If
it is the first type turned down in a pass, the pass ends with nothing taken in, since the
type is in the set already.

The set only grows at its end and a remembered type was turned down when it was
remembered. These two facts are kept by every call, and the rest follows.

## Main definitions

* `Consultation`: A call to a field policy.
* `FieldPolicy.afterAll`: A field policy after some calls.

## Theorems

* `Widening.decide_eq_true_iff`: When the growing policy refines a field.
* `FieldPolicy.exists_after`, `FieldPolicy.exists_afterAll`: What calls keep.
* `FieldPolicy.refines_after_widening`: What becomes of a type that was taken in.
* `FieldPolicy.declines_after_widening`: A type that is turned down again.
-/

namespace CallAtlas

/-- A call to a field policy: it is asked about a field, or the next pass begins. -/
inductive Consultation where
  | ask (f : Option Field)
  | pass

namespace Widening

variable {h : TypeHierarchy} {w : Widening} {f : Field} {t : String}

theorem admits_iff :
    w.admits h t = true ↔ ∃ r ∈ w.types, h.isAssignable t r = true ∨ h.isAssignable r t = true := by
  simp only [admits, List.any_eq_true, Bool.or_eq_true]

/-- The growing policy refines array contents, and the fields whose type counts as one that
    is related to its set. -/
theorem decide_eq_true_iff :
    (w.decide h f).1 = true ↔ f = .arrayContents ∨
      ∃ r ∈ w.types, h.isAssignable (outermost h f.declaringType) r = true ∨
        h.isAssignable r (outermost h f.declaringType) = true := by
  rw [← admits_iff, Widening.decide]
  by_cases harray : f.isArrayContents
  · rw [if_pos harray]
    exact iff_of_true rfl (Or.inl (of_decide_eq_true harray))
  · rw [if_neg harray]
    have hne : f ≠ .arrayContents := fun heq => harray (decide_eq_true heq)
    by_cases hadmits : w.admits h (outermost h f.declaringType)
    · simp [hadmits]
    · simp [hadmits, hne]

/-- A field that is refined leaves the policy as it was. -/
theorem decide_of_true (hf : (w.decide h f).1 = true) : w.decide h f = (true, w) := by
  unfold Widening.decide at hf ⊢
  split
  · rfl
  · next harray =>
    rw [if_neg harray] at hf
    by_cases hadmits : w.admits h (outermost h f.declaringType)
    · simp only [hadmits, if_true]
    · simp only [hadmits, Bool.false_eq_true, if_false] at hf

/-- The type of a field that is turned down is remembered, unless one was. -/
theorem decide_of_false (hf : (w.decide h f).1 = false) :
    w.decide h f = (false, w.skip (outermost h f.declaringType)) := by
  unfold Widening.decide at hf ⊢
  split
  · next harray =>
    rw [if_pos harray] at hf
    exact absurd hf (by simp)
  · next harray =>
    rw [if_neg harray] at hf
    by_cases hadmits : w.admits h (outermost h f.declaringType)
    · simp only [hadmits, if_true, Bool.true_eq_false] at hf
    · simp only [hadmits, Bool.false_eq_true, if_false]

theorem skip_of_some {s : String} (hs : w.skipped = some s) : w.skip t = w := by
  rw [skip, hs]

theorem skip_of_none (hs : w.skipped = none) : w.skip t = { w with skipped := some t } := by
  rw [skip, hs]

/-- The set grows by the remembered type, at its end. -/
theorem widen_of_true (hw : w.widen.2 = true) :
    ∃ t, w.skipped = some t ∧ w.widen.1 = { types := w.types ++ [t] } := by
  cases hs : w.skipped with
  | none => exact absurd hw (by simp [widen, hs])
  | some t =>
      by_cases ht : t ∈ w.types
      · exact absurd hw (by simp [widen, hs, ht])
      · exact ⟨t, rfl, by simp [widen, hs, ht]⟩

/-- Between passes the set keeps its types, and nothing is remembered afterwards. -/
theorem widen_keeps : w.types <+: w.widen.1.types ∧ w.widen.1.skipped = none := by
  unfold widen
  split
  · next hs => exact ⟨List.prefix_refl _, hs⟩
  · split
    · exact ⟨List.prefix_refl _, rfl⟩
    · exact ⟨List.prefix_append _ _, rfl⟩

end Widening

namespace FieldPolicy

variable {h : TypeHierarchy} {w : Widening} {t : String}

/-- A field policy after a call. A question about no field is refused and changes nothing. -/
def after (h : TypeHierarchy) (p : FieldPolicy) : Consultation → FieldPolicy
  | .ask f =>
    match p.shouldRefine h f with
    | .ok (_, q) => q
    | .error _ => p
  | .pass => p.nextPass.1

/-- A field policy after some calls. -/
def afterAll (h : TypeHierarchy) (p : FieldPolicy) (calls : List Consultation) : FieldPolicy :=
  calls.foldl (after h) p

/-- A call keeps the types of the growing policy. A type of the set that may be assigned
    to itself is not remembered as turned down: its fields are admitted. This fails for
    a type that may not be assigned to itself, which is why the condition is there. -/
theorem exists_after (c : Consultation) :
    ∃ w', (tuned w).after h c = tuned w' ∧ w.types <+: w'.types ∧
      (t ∈ w.types → h.isAssignable t t = true → w.skipped ≠ some t → w'.skipped ≠ some t) := by
  cases c with
  | pass =>
      refine ⟨w.widen.1, rfl, Widening.widen_keeps.1, fun _ _ _ => ?_⟩
      rw [Widening.widen_keeps.2]
      simp
  | ask f =>
      cases f with
      | none => exact ⟨w, rfl, List.prefix_refl _, fun _ _ hs => hs⟩
      | some f =>
          refine ⟨(w.decide h f).2, rfl, ?_⟩
          cases hf : (w.decide h f).1 with
          | true =>
              rw [Widening.decide_of_true hf]
              exact ⟨List.prefix_refl _, fun _ _ hs => hs⟩
          | false =>
              rw [Widening.decide_of_false hf]
              cases hs : w.skipped with
              | some s =>
                  rw [Widening.skip_of_some hs, hs]
                  exact ⟨List.prefix_refl _, fun _ _ hs => hs⟩
              | none =>
                  rw [Widening.skip_of_none hs]
                  refine ⟨List.prefix_refl _, fun ht hself _ heq => ?_⟩
                  -- The type is in the set, so the field would have been refined.
                  have htype : Widening.outermost h f.declaringType = t := Option.some.inj heq
                  have htrue : (w.decide h f).1 = true := by
                    rw [Widening.decide_eq_true_iff, htype]
                    exact Or.inr ⟨t, ht, Or.inl hself⟩
                  exact absurd (hf.symm.trans htrue) (by simp)

/-- Calls keep the types of the growing policy, and what is said of one call holds of all. -/
theorem exists_afterAll (calls : List Consultation) :
    ∃ w', (tuned w).afterAll h calls = tuned w' ∧ w.types <+: w'.types ∧
      (t ∈ w.types → h.isAssignable t t = true → w.skipped ≠ some t → w'.skipped ≠ some t) := by
  induction calls generalizing w with
  | nil => exact ⟨w, rfl, List.prefix_refl _, fun _ _ hs => hs⟩
  | cons c rest ih =>
      rcases exists_after (h := h) (w := w) (t := t) c with ⟨w₁, hw₁, htypes, hskip⟩
      rcases ih (w := w₁) with ⟨w₂, hw₂, htypes₂, hskip₂⟩
      refine ⟨w₂, ?_, htypes.trans htypes₂, fun ht hself hs => ?_⟩
      · rw [afterAll, List.foldl_cons, hw₁]
        exact hw₂
      · exact hskip₂ (htypes.subset ht) hself (hskip ht hself hs)

/-- What becomes of a type that was taken in, however the policy is used afterwards. It
    stays in the set. If it may be assigned to itself, its fields are refined and it is
    never remembered again. In any case its fields are refined exactly if it is related
    to a type of the set, and if it is the first to be turned down the next pass takes
    nothing in.

    In the hierarchy of a program, a type that the program does not hold is related to
    no type, not even to itself. Taking it in admits no field. -/
theorem refines_after_widening (h : TypeHierarchy) (before later : List Consultation)
    (hgrew : ((tuned {}).afterAll h before).nextPass.2 = true) :
    let p := (tuned {}).afterAll h before
    ∃ w t, p = tuned w ∧ w.skipped = some t ∧ p.nextPass.1 = tuned { types := w.types ++ [t] } ∧
      ∃ w', p.nextPass.1.afterAll h later = tuned w' ∧ w.types ++ [t] <+: w'.types ∧
        (h.isAssignable t t = true → w'.skipped ≠ some t ∧
          ∀ f, Widening.outermost h f.declaringType = t →
            (tuned w').shouldRefine h (some f) = .ok (true, tuned w')) ∧
        ∀ f, Widening.outermost h f.declaringType = t →
          ((∃ q, (tuned w').shouldRefine h (some f) = .ok (true, q)) ↔ f = .arrayContents ∨
            ∃ r ∈ w'.types, h.isAssignable t r = true ∨ h.isAssignable r t = true) ∧
          ∀ q, (tuned w').shouldRefine h (some f) = .ok (false, q) → w'.skipped = none →
            q.nextPass = (tuned w', false) := by
  intro p
  rcases exists_afterAll (h := h) (w := {}) (t := "") before with ⟨w, hw, _, _⟩
  have hp : p = tuned w := hw
  rw [hw] at hgrew
  rcases Widening.widen_of_true hgrew with ⟨t, hskipped, hwiden⟩
  have hnext : p.nextPass.1 = tuned { types := w.types ++ [t] } := by
    rw [hp, ← hwiden]
    rfl
  rcases exists_afterAll (h := h) (w := { types := w.types ++ [t] }) (t := t) later with
    ⟨w', hw', htypes, hnever⟩
  have hmem : t ∈ w.types ++ [t] := List.mem_append_right w.types List.mem_cons_self
  have hanswer : ∀ f, (tuned w').shouldRefine h (some f) =
      .ok ((w'.decide h f).1, tuned (w'.decide h f).2) := fun f => rfl
  refine ⟨w, t, hp, hskipped, hnext, w', by rw [hnext]; exact hw', htypes, ?_, ?_⟩
  · intro hself
    refine ⟨hnever hmem hself (by simp), fun f hf => ?_⟩
    have htrue : (w'.decide h f).1 = true := by
      rw [Widening.decide_eq_true_iff, hf]
      exact Or.inr ⟨t, htypes.subset hmem, Or.inl hself⟩
    rw [hanswer, Widening.decide_of_true htrue]
  · intro f hf
    constructor
    · have hiff := Widening.decide_eq_true_iff (h := h) (w := w') (f := f)
      rw [hf] at hiff
      rw [← hiff, hanswer]
      simp
    · intro q hq hnone
      rw [hanswer, Except.ok.injEq, Prod.mk.injEq] at hq
      rcases hq with ⟨hfalse, rfl⟩
      -- The type is remembered although it is in the set.
      have hin : t ∈ w'.types := htypes.subset hmem
      rw [Widening.decide_of_false hfalse, Widening.skip_of_none hnone, hf]
      simp only [nextPass, Widening.widen, hin, if_true, ← hnone]

/-! ## A type that is held and one that is not -/

/-- A program that holds one named type. -/
def gauge : Program :=
  { types := [⟨"pkg.Gauge", false, ["pkg.Gauge"], []⟩] }

/-- The type that the program holds is refined once it was taken in, also after the set has
    grown again. -/
theorem refines_after_widening_gauge :
    let h := gauge.typeHierarchy
    let f : Field := ⟨"pkg.Gauge", "level"⟩
    let p := (tuned {}).afterAll h [.ask (some f)]
    let later : List Consultation := [.ask (some ⟨"lib.Meter", "unit"⟩), .pass, .ask none]
    p.nextPass.2 = true ∧
      p.nextPass.1.afterAll h later = tuned { types := ["pkg.Gauge", "lib.Meter"] } ∧
      (p.nextPass.1.afterAll h later).shouldRefine h (some f) =
        .ok (true, p.nextPass.1.afterAll h later) := by
  intro h f p later
  have hgrew : p.nextPass.2 = true := by decide +kernel
  have hp : p = tuned { skipped := some "pkg.Gauge" } := by decide +kernel
  have hself : h.isAssignable "pkg.Gauge" "pkg.Gauge" = true := by decide +kernel
  have houter : Widening.outermost h f.declaringType = "pkg.Gauge" := by decide +kernel
  -- The set has grown once before and grows once more afterwards.
  rcases refines_after_widening h [.ask (some f)] later hgrew with
    ⟨w, t, hw, hskipped, _, w', hw', _, hrefines, _⟩
  obtain rfl : w = { skipped := some "pkg.Gauge" } := tuned.inj (hw.symm.trans hp)
  obtain rfl : "pkg.Gauge" = t := Option.some.inj hskipped
  refine ⟨hgrew, by decide +kernel, ?_⟩
  have hanswer := (hrefines hself).2 f houter
  rw [← hw'] at hanswer
  exact hanswer

/-- A type that the program does not hold is taken in, and its fields are turned down as
    before. As the first type turned down in a pass it keeps the other one out, although that
    one would have been refined from then on. -/
theorem declines_after_widening :
    let h := gauge.typeHierarchy
    let f : Field := ⟨"lib.Meter", "unit"⟩
    let p := (tuned {}).afterAll h [.ask (some f)]
    let q := p.nextPass.1
    p.nextPass.2 = true ∧ q = tuned { types := ["lib.Meter"] } ∧
      Widening.outermost h f.declaringType = "lib.Meter" ∧
      q.shouldRefine h (some f) =
        .ok (false, tuned { types := ["lib.Meter"], skipped := some "lib.Meter" }) ∧
      (q.afterAll h [.ask (some f), .ask (some ⟨"pkg.Gauge", "level"⟩)]).nextPass = (q, false) := by
  intro h f p q
  have hanswer : q.decide h f =
      (false, tuned { types := ["lib.Meter"], skipped := some "lib.Meter" }) := by
    decide +kernel
  exact ⟨by decide +kernel, by decide +kernel, by decide +kernel, congrArg Except.ok hanswer,
    by decide +kernel⟩

end FieldPolicy

end CallAtlas
