import CallAtlas.Proofs.Widening
import Mathlib.Data.Finset.Card
import Mathlib.Data.Finset.Dedup
import Mathlib.Data.List.Induction

/-!
# The Growing Policy Stops Growing

The growing policy has no list of types to work through. It takes in whatever it turned
down first, so how often it can grow depends on what it is asked about. This module counts:
the policy grows at most once for every type that counts for some field it was asked about,
and a loop that goes on only while the policy grows ends by itself if the fields it asks
about have finitely many types.

The set of types alone does not tell which field was turned down first, or how often the
policy has grown. An observer who writes both down as the calls go by is compared with the
policy after each of them. What is remembered is always the type of the first field on the
observer's list, and the set is as long as the observer's count.

## Main definitions

* `FieldPolicy.Note`: What an observer writes down.
* `FieldPolicy.noted`: What was written down after some calls.
* `askedTypes`: The types that count for the fields asked about.
* `FieldPolicy.rounds`: The calls of a loop that goes from pass to pass.

## Theorems

* `Widening.widen_cases`: What the beginning of a pass can do.
* `FieldPolicy.agrees_afterAll`: The policy agrees with the observer after any calls.
* `FieldPolicy.exists_round_unchanged`: A loop over finitely many types comes to an end.
* `FieldPolicy.widening_saturates`: The policy grows step by step, and not for ever.
-/

namespace CallAtlas

/-- The types that count for the fields asked about. -/
def askedTypes (h : TypeHierarchy) (calls : List Consultation) : List String :=
  calls.filterMap fun
    | .ask (some f) => some (Widening.outermost h f.declaringType)
    | .ask none | .pass => none

/-- A type counts if it is that of a field that was asked about. -/
theorem mem_askedTypes {h : TypeHierarchy} {calls : List Consultation} {t : String} :
    t ∈ askedTypes h calls ↔
      ∃ f, .ask (some f) ∈ calls ∧ Widening.outermost h f.declaringType = t := by
  rw [askedTypes, List.mem_filterMap]
  constructor
  · rintro ⟨(_ | f) | _, hmem, heq⟩
    · cases heq
    · exact ⟨f, hmem, Option.some.inj heq⟩
    · cases heq
  · rintro ⟨f, hmem, rfl⟩
    exact ⟨_, hmem, rfl⟩

namespace Widening

/-- A pass begins with one type more in the set, which is the remembered one and was not in
    it, or with the same set. Nothing is remembered then. -/
theorem widen_cases (w : Widening) :
    w.widen = ({ types := w.types }, false) ∨
      ∃ t, w.skipped = some t ∧ t ∉ w.types ∧ w.widen = ({ types := w.types ++ [t] }, true) := by
  rcases w with ⟨types, skipped⟩
  cases skipped with
  | none => exact Or.inl rfl
  | some t =>
      by_cases ht : t ∈ types
      · exact Or.inl (by simp [widen, ht])
      · exact Or.inr ⟨t, rfl, ht, by simp [widen, ht]⟩

/-- What is remembered does not change the set. -/
theorem types_skip (w : Widening) (t : String) : (w.skip t).types = w.types := by
  rw [skip]
  split
  · rfl
  · rfl

/-- A question leaves the set as it is. -/
theorem types_decide (h : TypeHierarchy) (w : Widening) (f : Field) :
    (w.decide h f).2.types = w.types := by
  cases hf : (w.decide h f).1 with
  | true => rw [decide_of_true hf]
  | false => rw [decide_of_false hf, types_skip]

end Widening

namespace FieldPolicy

/-- What an observer of a policy writes down: the fields turned down since the last pass
    began, and how often the policy has said that something changed. -/
structure Note where
  declined : List Field := []
  widened : Nat := 0

/-- What is written down at a call. -/
def Note.add (h : TypeHierarchy) (p : FieldPolicy) (n : Note) : Consultation → Note
  | .ask none => n
  | .ask (some f) => if (p.decide h f).1 then n else { n with declined := n.declined ++ [f] }
  | .pass => { widened := if p.nextPass.2 then n.widened + 1 else n.widened }

/-- What was written down after some calls. -/
def noted (h : TypeHierarchy) (p : FieldPolicy) (calls : List Consultation) : Note :=
  (calls.foldl (fun s c => (s.1.after h c, s.2.add h s.1 c)) (p, {})).2

theorem afterAll_concat (h : TypeHierarchy) (p : FieldPolicy) (calls : List Consultation)
    (c : Consultation) : p.afterAll h (calls ++ [c]) = (p.afterAll h calls).after h c := by
  rw [afterAll, List.foldl_append, List.foldl_cons, List.foldl_nil, ← afterAll]

/-- What is written down at one more call depends on the policy as the calls before have left it. -/
theorem noted_concat (h : TypeHierarchy) (p : FieldPolicy) (calls : List Consultation)
    (c : Consultation) :
    noted h p (calls ++ [c]) = (noted h p calls).add h (p.afterAll h calls) c := by
  have hpolicy : ∀ (l : List Consultation) (s : FieldPolicy × Note),
      (l.foldl (fun s c => (s.1.after h c, s.2.add h s.1 c)) s).1 = s.1.afterAll h l := by
    intro l
    induction l with
    | nil => exact fun s => rfl
    | cons c rest ih => exact fun s => ih _
  rw [noted, List.foldl_append, List.foldl_cons, List.foldl_nil, hpolicy, noted]

variable {h : TypeHierarchy} {calls : List Consultation} {w : Widening}

/-- The growing policy agrees with what was written down. -/
structure Agrees (h : TypeHierarchy) (calls : List Consultation) (w : Widening) (n : Note) :
    Prop where
  nodup : w.types.Nodup
  skipped_eq : w.skipped = n.declined.head?.map fun f => Widening.outermost h f.declaringType
  length_eq : w.types.length = n.widened
  asked_types : ∀ t ∈ w.types, t ∈ askedTypes h calls
  asked_declined : ∀ f ∈ n.declined, .ask (some f) ∈ calls

/-- Nothing is remembered exactly if nothing was turned down. -/
theorem Agrees.skipped_eq_none_iff {n : Note} (hw : Agrees h calls w n) :
    w.skipped = none ↔ n.declined = [] := by
  rw [hw.skipped_eq, Option.map_eq_none_iff, List.head?_eq_none_iff]

/-- The remembered type is that of the field turned down first. -/
theorem Agrees.exists_head {n : Note} (hw : Agrees h calls w n) {t : String}
    (ht : w.skipped = some t) :
    ∃ f, n.declined.head? = some f ∧ Widening.outermost h f.declaringType = t := by
  rw [hw.skipped_eq, Option.map_eq_some_iff] at ht
  exact ht

/-- What is kept while nothing is taken in and nothing is turned down. One more call
    makes no type less asked about. -/
theorem Agrees.concat {n : Note} (hw : Agrees h calls w n) (c : Consultation) :
    Agrees h (calls ++ [c]) w n where
  nodup := hw.nodup
  skipped_eq := hw.skipped_eq
  length_eq := hw.length_eq
  asked_types t ht := by
    rw [askedTypes, List.filterMap_append]
    exact List.mem_append_left _ (hw.asked_types t ht)
  asked_declined f hf := List.mem_append_left _ (hw.asked_declined f hf)

/-- The beginning of a pass empties the list and lengthens the set by what was first on it,
    unless that is in the set. -/
theorem Agrees.pass {n : Note} (hw : Agrees h calls w n) :
    Agrees h (calls ++ [.pass]) w.widen.1 (n.add h (tuned w) .pass) := by
  have hsame := hw.concat .pass
  have hgrew : (tuned w).nextPass.2 = w.widen.2 := rfl
  rcases w.widen_cases with hwiden | ⟨t, ht, hnew, hwiden⟩
  · rw [Note.add, hgrew, hwiden]
    exact ⟨hw.nodup, rfl, hw.length_eq, hsame.asked_types, by simp⟩
  · rw [Note.add, hgrew, hwiden]
    rcases hw.exists_head ht with ⟨f, hf, htype⟩
    -- The first field that was turned down was asked about, so its type was.
    have hasked : t ∈ askedTypes h (calls ++ [.pass]) :=
      mem_askedTypes.2 ⟨f, hsame.asked_declined f (List.mem_of_head? hf), htype⟩
    refine ⟨?_, rfl, ?_, fun u hu => ?_, by simp⟩
    · exact List.nodup_append.2 ⟨hw.nodup, by simp, by rintro a ha b hb rfl; simp_all⟩
    · simp [hw.length_eq]
    · rcases List.mem_append.1 hu with hu | hu
      · exact hsame.asked_types u hu
      · rw [List.mem_singleton.1 hu]
        exact hasked

/-- A field that is turned down is written down last, and remembered if it is also the
    first. From then on the list is not empty, and what is remembered stays until the
    next pass. -/
theorem Agrees.decline {n : Note} (hw : Agrees h calls w n) (f : Field) :
    Agrees h (calls ++ [.ask (some f)]) (w.skip (Widening.outermost h f.declaringType))
      { n with declined := n.declined ++ [f] } := by
  have hsame := hw.concat (.ask (some f))
  have hdeclined : ∀ g ∈ n.declined ++ [f], .ask (some g) ∈ calls ++ [.ask (some f)] := by
    intro g hg
    rcases List.mem_append.1 hg with hg | hg
    · exact hsame.asked_declined g hg
    · rw [List.mem_singleton.1 hg]
      exact List.mem_append_right _ List.mem_cons_self
  cases hlist : n.declined with
  | nil =>
      rw [Widening.skip_of_none (hw.skipped_eq_none_iff.2 hlist)]
      rw [hlist] at hdeclined
      exact ⟨hw.nodup, rfl, hw.length_eq, hsame.asked_types, hdeclined⟩
  -- The list is not empty, so a type is remembered already, and it stays.
  | cons g rest =>
      have hsome : w.skipped = some (Widening.outermost h g.declaringType) := by
        rw [hw.skipped_eq, hlist]
        rfl
      rw [Widening.skip_of_some hsome]
      rw [hlist] at hdeclined
      exact ⟨hw.nodup, hsome, hw.length_eq, hsame.asked_types, hdeclined⟩

/-- One call keeps the policy in agreement with what is written down. -/
theorem Agrees.after {n : Note} (hw : Agrees h calls w n) (c : Consultation) :
    ∃ w', (tuned w).after h c = tuned w' ∧ Agrees h (calls ++ [c]) w' (n.add h (tuned w) c) := by
  cases c with
  | pass => exact ⟨w.widen.1, rfl, hw.pass⟩
  | ask f =>
      cases f with
      | none => exact ⟨w, rfl, hw.concat _⟩
      | some f =>
          refine ⟨(w.decide h f).2, rfl, ?_⟩
          have hanswer : ((tuned w).decide h f).1 = (w.decide h f).1 := rfl
          -- Only a field that is turned down is written down.
          cases hf : (w.decide h f).1 with
          | true =>
              rw [Note.add, hanswer, hf, if_pos rfl, Widening.decide_of_true hf]
              exact hw.concat _
          | false =>
              rw [Note.add, hanswer, hf, if_neg Bool.false_ne_true, Widening.decide_of_false hf]
              exact hw.decline f

/-- Any calls keep the policy in agreement with what is written down. The induction
    takes calls off the end, where the observer writes. -/
theorem agrees_afterAll (h : TypeHierarchy) (calls : List Consultation) :
    ∃ w, (tuned {}).afterAll h calls = tuned w ∧ Agrees h calls w (noted h (tuned {}) calls) := by
  induction calls using List.reverseRecOn with
  | nil => exact ⟨{}, rfl, ⟨by simp, rfl, rfl, by simp, by simp [noted]⟩⟩
  | append_singleton calls c ih =>
      rcases ih with ⟨w, hw, hagrees⟩
      rcases hagrees.after c with ⟨w', hw', hagrees'⟩
      refine ⟨w', by rw [afterAll_concat, hw, hw'], ?_⟩
      rw [noted_concat, hw]
      exact hagrees'

/-- The policy grows at most once for each type asked about. Its set is as long as the
    count of changes, has no type twice, and has only types that were asked about. -/
theorem widened_le (h : TypeHierarchy) (calls : List Consultation) :
    (noted h (tuned {}) calls).widened ≤ (askedTypes h calls).toFinset.card := by
  rcases agrees_afterAll h calls with ⟨w, _, hw⟩
  rw [← hw.length_eq, ← List.toFinset_card_of_nodup hw.nodup]
  refine Finset.card_le_card fun t ht => ?_
  rw [List.mem_toFinset] at ht ⊢
  exact hw.asked_types t ht

/-! ## Loops -/

/-- The questions of a pass. -/
def questionsOf (fields : List Field) : List Consultation := fields.map fun f => .ask (some f)

/-- The calls of the first passes of a loop, with the fields it asks about in each, and
    the beginning of the next pass after each. -/
def rounds (asked : Nat → List Field) : Nat → List Consultation
  | 0 => []
  | k + 1 => rounds asked k ++ questionsOf (asked k) ++ [.pass]

/-- Questions are no reason to say that something changed. -/
theorem widened_noted_questions (p : FieldPolicy) (fields : List Field) :
    (noted h p (calls ++ questionsOf fields)).widened = (noted h p calls).widened := by
  induction fields using List.reverseRecOn with
  | nil => rw [questionsOf, List.map_nil, List.append_nil]
  | append_singleton fields f ih =>
      rw [questionsOf, List.map_append, ← List.append_assoc, List.map_singleton, noted_concat,
        Note.add]
      split
      · exact ih
      · exact ih

/-- What a loop asks about is asked about in one of its passes. -/
theorem mem_rounds {asked : Nat → List Field} {f : Field} {k : Nat}
    (hf : .ask (some f) ∈ rounds asked k) : ∃ i, f ∈ asked i := by
  induction k with
  | zero => cases hf
  | succ k ih =>
      simp only [rounds, questionsOf, List.mem_append, List.mem_map, List.mem_singleton,
        Consultation.ask.injEq, Option.some.injEq, exists_eq_right, reduceCtorEq, or_false] at hf
      rcases hf with hf | hf
      · exact ih hf
      · exact ⟨k, hf⟩

/-- In a loop that asks about fields of finitely many types, some pass is followed by no
    change. If each were followed by one, there would be more changes than types. -/
theorem exists_round_unchanged (h : TypeHierarchy) (asked : Nat → List Field)
    (types : Finset String)
    (hasked : ∀ k, ∀ f ∈ asked k, Widening.outermost h f.declaringType ∈ types) :
    ∃ k ≤ types.card,
      ((tuned {}).afterAll h (rounds asked k ++ questionsOf (asked k))).nextPass.2 = false := by
  by_contra hnever
  have hgrows : ∀ k ≤ types.card,
      ((tuned {}).afterAll h (rounds asked k ++ questionsOf (asked k))).nextPass.2 = true := by
    intro k hk
    by_contra hfalse
    exact hnever ⟨k, hk, Bool.eq_false_iff.2 hfalse⟩
  -- If each pass is followed by a change, the changes are as many as the passes.
  have hcount : ∀ k ≤ types.card + 1, (noted h (tuned {}) (rounds asked k)).widened = k := by
    intro k
    induction k with
    | zero => exact fun _ => rfl
    | succ k ih =>
        intro hk
        rw [rounds, noted_concat, Note.add, if_pos (hgrows k (by omega)), widened_noted_questions,
          ih (by omega)]
  have hle := widened_le h (rounds asked (types.card + 1))
  -- What is asked about has one of the types, and the set takes in nothing else.
  have hsub : (askedTypes h (rounds asked (types.card + 1))).toFinset ⊆ types := by
    intro t ht
    rcases mem_askedTypes.1 (List.mem_toFinset.1 ht) with ⟨f, hf, rfl⟩
    rcases mem_rounds hf with ⟨k, hk⟩
    exact hasked k f hk
  have hcard := Finset.card_le_card hsub
  rw [hcount _ (le_refl _)] at hle
  omega

/-! ## Everything about the set -/

/-- The growing policy, asked anything in any order. Its set has no type twice and grows
    at its end, by the type of the first field turned down since the last pass began and
    only between passes. What is refined once is refined ever after. The set grows at
    most once for each type asked about, so a loop over finitely many types comes to an
    end by itself.

    What the policy remembers is told from outside, by an observer who sees only the
    answers. -/
theorem widening_saturates (h : TypeHierarchy) (calls : List Consultation) :
    let p := (tuned {}).afterAll h calls
    let n := noted h (tuned {}) calls
    ∃ w, p = tuned w ∧ w.types.Nodup ∧
      -- What is remembered is the first type turned down since the last pass began.
      w.skipped = n.declined.head?.map (fun f => Widening.outermost h f.declaringType) ∧
      (w.skipped = none ↔ n.declined = []) ∧
      -- A question leaves the set as it is.
      (∀ f, ∃ refined w', p.shouldRefine h (some f) = .ok (refined, tuned w') ∧
        w'.types = w.types) ∧
      -- A pass begins with at most one type more, and says so.
      (∃ w', p.nextPass.1 = tuned w' ∧ (p.nextPass.2 = true ↔ w'.types ≠ w.types) ∧
        (w'.types = w.types ∨ ∃ f, n.declined.head? = some f ∧
          w'.types = w.types ++ [Widening.outermost h f.declaringType])) ∧
      -- Whatever is asked later, the set begins as it was and refines what it did.
      (∀ later, ∃ w', p.afterAll h later = tuned w' ∧ w.types <+: w'.types ∧
        ∀ f, (∃ q, p.shouldRefine h (some f) = .ok (true, q)) →
          ∃ q, (p.afterAll h later).shouldRefine h (some f) = .ok (true, q)) ∧
      -- There are not more changes than types, and a loop that waits for changes ends.
      n.widened ≤ (askedTypes h calls).toFinset.card ∧
      ∀ (asked : Nat → List Field) (types : Finset String),
        (∀ k, ∀ f ∈ asked k, Widening.outermost h f.declaringType ∈ types) →
        ∃ k ≤ types.card, ((tuned {}).afterAll h
          (rounds asked k ++ questionsOf (asked k))).nextPass.2 = false := by
  intro p n
  rcases agrees_afterAll h calls with ⟨w, hp, hw⟩
  have hp : p = tuned w := hp
  have hanswer : ∀ (v : Widening) (f : Field), (tuned v).shouldRefine h (some f) =
      .ok ((v.decide h f).1, tuned (v.decide h f).2) := fun v f => rfl
  refine ⟨w, hp, hw.nodup, hw.skipped_eq, hw.skipped_eq_none_iff, fun f => ?_, ?_, fun later => ?_,
    widened_le h calls, exists_round_unchanged h⟩
  · rw [hp, hanswer]
    exact ⟨_, _, rfl, Widening.types_decide h w f⟩
  · have hpass : p.nextPass = (tuned w.widen.1, w.widen.2) := by rw [hp]; rfl
    rw [hpass]
    refine ⟨w.widen.1, rfl, ?_⟩
    rcases w.widen_cases with hwiden | ⟨t, ht, _, hwiden⟩
    · rw [hwiden]
      exact ⟨by simp, Or.inl rfl⟩
    · rw [hwiden]
      rcases hw.exists_head ht with ⟨f, hf, rfl⟩
      exact ⟨by simp, Or.inr ⟨f, hf, rfl⟩⟩
  · rcases exists_afterAll (h := h) (w := w) (t := "") later with ⟨w', hw', htypes, _⟩
    rw [← hp] at hw'
    refine ⟨w', hw', htypes, fun f hf => ?_⟩
    rw [hw', hanswer]
    rw [hp, hanswer] at hf
    rcases hf with ⟨q, hq⟩
    have hrefined : (w.decide h f).1 = true := (Prod.mk.inj (Except.ok.inj hq)).1
    -- A type that is related to the set is related to every longer one.
    have hstill : (w'.decide h f).1 = true := by
      rw [Widening.decide_eq_true_iff] at hrefined ⊢
      refine hrefined.imp_right ?_
      rintro ⟨r, hr, hrelated⟩
      exact ⟨r, htypes.subset hr, hrelated⟩
    exact ⟨_, by rw [hstill]⟩

end FieldPolicy

end CallAtlas
