import CallAtlas.Program.Index
import Mathlib.Data.List.Basic

/-!
# References of Indexed Functions

A function is called by what it looks like, and by its label if something else is called
that already. Nothing asks whether the second reference is free. This module says what an
index guarantees all the same, and when its references tell functions apart.

Two facts hold of every index: a reference that was given stays, and whoever is found under
a reference has it. So the only way to go wrong is a function that is not found because
another one was given its reference later. That happens in one situation, `Clashes`: a
function is indexed whose own reference is taken and whose label leads to one that is taken
as well. References are distinct exactly if this happened at no step.

The situation depends on the order in which functions came. `Program.TellsApart` does not: it
looks at functions that look alike, and asks that their labels lead to references of their
own. The label of a function that nothing else looks like is never used.

## Main definitions

* `FunctionIndex.labelRef`: The reference of a function that is called by its label.
* `FunctionIndex.Distinct`: No two functions have the same reference.
* `FunctionIndex.Sound`: References have owners, and owners have their references.
* `FunctionIndex.Clashes`: Both references that a function might get are taken.
* `Program.TellsApart`: Labels tell functions apart that look alike.

## Theorems

* `FunctionIndex.find?_refs_foldl`: A reference that was given stays.
* `FunctionIndex.Sound.distinct_iff`: Distinct references lead back to their functions.
* `FunctionIndex.distinct_foldl_iff`: References are distinct if no function clashed.
* `Program.TellsApart.distinct`: References are distinct, whatever the order, if labels tell
  functions apart.
-/

namespace CallAtlas

namespace FunctionIndex

variable {p : Program} {ix : FunctionIndex} {f g : Nat} {ref : MethodRef}

/-- The reference of a function that is called by its label. -/
def labelRef (p : Program) (f : Nat) : MethodRef :=
  { naturalRef p f with name := (p.function f).label }

/-- No two functions have the same reference. -/
def Distinct (ix : FunctionIndex) : Prop :=
  ∀ f g ref, ix.refs.find? f = some ref → ix.refs.find? g = some ref → f = g

/-- A reference that was given has an owner, and an owner has the reference. -/
structure Sound (ix : FunctionIndex) : Prop where
  owned : ∀ {f ref}, ix.refs.find? f = some ref → ix.owners.contains ref
  owner : ∀ {ref f}, ix.owners.find? ref = some f → ix.refs.find? f = some ref

/-- A function is to be indexed, and both references that it might get are taken. -/
def Clashes (p : Program) (ix : FunctionIndex) (f : Nat) : Prop :=
  ix.refs.find? f = none ∧ ix.owners.contains (naturalRef p f) ∧ ix.owners.contains (labelRef p f)

/-! ## Indexing one function -/

theorem add_of_indexed (h : ix.refs.contains f) : ix.add p f = ix := if_pos h

theorem refs_add_of_new (h : ix.refs.find? f = none) :
    (ix.add p f).refs = ix.refs.insert f (ix.chooseRef p f) := by
  have hnew : ¬ix.refs.contains f := by simp [Table.contains, h]
  rw [add, if_neg hnew]

/-- A function that is new becomes the owner of its reference, also if there was another one. -/
theorem owners_add_of_new (h : ix.refs.find? f = none) :
    (ix.add p f).owners = ix.owners.insert (ix.chooseRef p f) f := by
  have hnew : ¬ix.refs.contains f := by simp [Table.contains, h]
  rw [add, if_neg hnew]

/-- A function that was indexed is indexed. -/
theorem contains_refs_add (p : Program) (ix : FunctionIndex) (f : Nat) :
    (ix.add p f).refs.contains f := by
  cases h : ix.refs.find? f with
  | none =>
      rw [refs_add_of_new h, Table.contains_insert]
      exact Or.inl rfl
  | some ref =>
      have hold : ix.refs.contains f := by simp [Table.contains, h]
      rw [add_of_indexed hold]
      exact hold

/-- A reference that was given stays when another function is indexed. -/
theorem find?_refs_add (h : ix.refs.find? f = some ref) (g : Nat) :
    (ix.add p g).refs.find? f = some ref := by
  cases hg : ix.refs.find? g with
  | some _ => rwa [add_of_indexed (by simp [Table.contains, hg])]
  | none =>
      rw [refs_add_of_new hg, Table.find?_insert, if_neg]
      · exact h
      · rintro rfl
        rw [hg] at h
        cases h

/-- Whatever is found after a function was indexed was there before or belongs to it.
    This is the only case split that statements about references need. -/
theorem find?_refs_add_cases (h : (ix.add p g).refs.find? f = some ref) :
    ix.refs.find? f = some ref ∨
      (f = g ∧ ix.refs.find? g = none ∧ ref = ix.chooseRef p g) := by
  cases hg : ix.refs.find? g with
  | some _ =>
      rw [add_of_indexed (by simp [Table.contains, hg])] at h
      exact Or.inl h
  | none =>
      rw [refs_add_of_new hg, Table.find?_insert] at h
      split at h
      · next heq => exact Or.inr ⟨heq.symm, rfl, (Option.some.inj h).symm⟩
      · exact Or.inl h

namespace Sound

/-- Nothing is indexed at first. -/
theorem empty : Sound {} := by
  constructor
  · intro f ref h
    cases h
  · intro ref f h
    cases h

/-- A function that is new gets the reference that it looks like, or else that of its label. -/
theorem chooseRef_eq (h : Sound ix) (hf : ix.refs.find? f = none) :
    ix.chooseRef p f =
      if ix.owners.contains (naturalRef p f) then labelRef p f else naturalRef p f := by
  unfold chooseRef Table.contains
  cases howner : ix.owners.find? (naturalRef p f) with
  | none => simp [howner]
  | some other =>
      -- An owner has its reference, so it is not the function that has none.
      have hother : other ≠ f := by
        rintro rfl
        have hfind := h.owner howner
        rw [hf] at hfind
        cases hfind
      simp [howner, hother, labelRef]

/-- A function is given a reference that is taken exactly if both are. The label is the
    last resort, and nobody asks whether it is free. -/
theorem owned_chooseRef_iff (h : Sound ix) (hf : ix.refs.find? f = none) :
    ix.owners.contains (ix.chooseRef p f) ↔ Clashes p ix f := by
  rw [h.chooseRef_eq hf, Clashes]
  by_cases hnatural : ix.owners.contains (naturalRef p f)
  · simp [hf, hnatural]
  · simp [hnatural]

/-- Indexing a function keeps references and owners in agreement. A function that is
    replaced as the owner of its reference still has the reference, so a reference is
    asked to have some owner and not to lead back. -/
theorem add (h : Sound ix) (p : Program) (f : Nat) : Sound (ix.add p f) := by
  cases hf : ix.refs.find? f with
  | some ref => rwa [add_of_indexed (by simp [Table.contains, hf])]
  | none =>
      constructor
      · intro g ref hg
        rw [owners_add_of_new hf, Table.contains_insert]
        -- A reference that was given before has an owner, and the new one has the new function.
        rcases find?_refs_add_cases hg with hold | ⟨_, _, rfl⟩
        · exact Or.inr (h.owned hold)
        · exact Or.inl rfl
      · -- The new owner has the reference that it was entered with, and the others have theirs.
        intro ref g hg
        rw [owners_add_of_new hf, Table.find?_insert] at hg
        split at hg
        · next heq =>
            cases hg
            rw [refs_add_of_new hf, Table.find?_insert, if_pos rfl, heq]
        · exact find?_refs_add (h.owner hg) f

theorem foldl_add (h : Sound ix) (p : Program) (fs : List Nat) : Sound (fs.foldl (.add p) ix) := by
  induction fs generalizing ix with
  | nil => exact h
  | cons f rest ih => exact ih (h.add p f)

/-- Distinct references lead back to their functions, and only those do. A reference
    leads to its owner, so this says that each function is the owner of its reference. -/
theorem distinct_iff (h : Sound ix) :
    ix.Distinct ↔ ∀ f ref, ix.refs.find? f = some ref → ix.owners.find? ref = some f := by
  constructor
  · intro hdistinct f ref hf
    rcases Option.isSome_iff_exists.1 (h.owned hf) with ⟨g, hg⟩
    rw [hg, hdistinct f g ref hf (h.owner hg)]
  · intro hback f g ref hf hg
    have hsame := (hback f ref hf).symm.trans (hback g ref hg)
    exact Option.some.inj hsame

/-- Indexing a function keeps references distinct exactly if it does not clash. What was
    given stays, so all depends on whether the new reference is one of those that were. -/
theorem distinct_add_iff (h : Sound ix) (p : Program) (f : Nat) :
    (ix.add p f).Distinct ↔ ix.Distinct ∧ ¬Clashes p ix f := by
  cases hf : ix.refs.find? f with
  | some ref =>
      rw [add_of_indexed (by simp [Table.contains, hf])]
      have hnot : ¬Clashes p ix f := fun hclash => by
        have hnew := hclash.1
        rw [hf] at hnew
        cases hnew
      exact (and_iff_left hnot).symm
  | none =>
      have hown : (ix.add p f).refs.find? f = some (ix.chooseRef p f) := by
        rw [refs_add_of_new hf, Table.find?_insert, if_pos rfl]
      rw [← h.owned_chooseRef_iff hf]
      constructor
      · -- If the new reference had an owner, two functions would share it.
        intro hdistinct
        refine ⟨fun a b ref ha hb => hdistinct a b ref (find?_refs_add ha f) (find?_refs_add hb f),
          fun howned => ?_⟩
        rcases Option.isSome_iff_exists.1 howned with ⟨g, hg⟩
        have hold := h.owner hg
        rw [← hdistinct f g _ hown (find?_refs_add hold f), hf] at hold
        cases hold
      · rintro ⟨hdistinct, hfree⟩ a b ref ha hb
        -- Either both functions were there before, or one of them is new, and then its
        -- reference is free.
        rcases find?_refs_add_cases ha with hold | ⟨rfl, _, rfl⟩
        · rcases find?_refs_add_cases hb with hold' | ⟨rfl, _, rfl⟩
          · exact hdistinct a b ref hold hold'
          · exact absurd (h.owned hold) hfree
        · rcases find?_refs_add_cases hb with hold | ⟨rfl, _, _⟩
          · exact absurd (h.owned hold) hfree
          · rfl

end Sound

/-! ## Indexing many functions -/

/-- A reference that was given stays, whatever is indexed later. -/
theorem find?_refs_foldl (h : ix.refs.find? f = some ref) (fs : List Nat) :
    (fs.foldl (add p) ix).refs.find? f = some ref := by
  induction fs generalizing ix with
  | nil => exact h
  | cons g rest ih => exact ih (find?_refs_add h g)

/-- References are distinct exactly if no function clashed when it was indexed. Whether
    a function clashes depends on those before it, so the functions are looked at one by
    one with what came before each. -/
theorem distinct_foldl_iff (h : Sound ix) (fs : List Nat) :
    (fs.foldl (add p) ix).Distinct ↔ ix.Distinct ∧
      ∀ pre f post, fs = pre ++ f :: post → ¬Clashes p (pre.foldl (add p) ix) f := by
  induction fs generalizing ix with
  | nil => simp
  | cons g rest ih =>
      rw [List.foldl_cons, ih (h.add p g), h.distinct_add_iff, and_assoc]
      refine and_congr_right fun _ => ⟨?_, fun hall => ⟨hall [] g rest rfl, ?_⟩⟩
      · rintro ⟨hfirst, hrest⟩ pre f post hsplit
        -- The function that clashes is the first of the list or one of the rest.
        rcases List.cons_eq_append_iff.1 hsplit with ⟨rfl, heq⟩ | ⟨pre', rfl, heq⟩
        · cases heq
          exact hfirst
        · exact hrest pre' f post heq
      · rintro pre f post rfl
        exact hall (g :: pre) f post rfl

end FunctionIndex

open FunctionIndex (naturalRef labelRef)

/-! ## Labels that tell functions apart -/

namespace Program

variable {p : Program} {fs : List Nat} {f : Nat}

/-- Another function looks like a given one. -/
def HasDouble (p : Program) (fs : List Nat) (f : Nat) : Prop :=
  ∃ a ∈ fs, a ≠ f ∧ naturalRef p a = naturalRef p f

instance : Decidable (p.HasDouble fs f) := inferInstanceAs (Decidable (∃ a ∈ fs, _))

/-- The label of a function that another one looks like leads to a reference that
    belongs to no one else. -/
def TellsApart (p : Program) (fs : List Nat) : Prop :=
  ∀ f ∈ fs, p.HasDouble fs f → ∀ g ∈ fs, g ≠ f →
    labelRef p f ≠ naturalRef p g ∧ (p.HasDouble fs g → labelRef p f ≠ labelRef p g)

instance : Decidable (p.TellsApart fs) := inferInstanceAs (Decidable (∀ f ∈ fs, _))

/-- Functions have the references that they look like, or that of their labels if others
    look like them. -/
def Explains (p : Program) (fs : List Nat) (ix : FunctionIndex) : Prop :=
  ∀ f ref, ix.refs.find? f = some ref →
    f ∈ fs ∧ (ref = naturalRef p f ∨ (ref = labelRef p f ∧ p.HasDouble fs f))

namespace TellsApart

/-- If the reference that a new function looks like is taken, another one looks like it. -/
theorem hasDouble (h : p.TellsApart fs) {ix : FunctionIndex} (hix : ix.Sound)
    (hexplains : p.Explains fs ix) (hf : f ∈ fs) (hnew : ix.refs.find? f = none)
    (howned : ix.owners.contains (naturalRef p f)) : p.HasDouble fs f := by
  rcases Option.isSome_iff_exists.1 howned with ⟨a, ha⟩
  have hrefs := hix.owner ha
  have hne : a ≠ f := by
    rintro rfl
    rw [hnew] at hrefs
    cases hrefs
  rcases hexplains a _ hrefs with ⟨hmem, hnatural | ⟨hlabel, hdouble⟩⟩
  · exact ⟨a, hmem, hne, hnatural.symm⟩
  · exact absurd hlabel.symm (h a hmem hdouble f hf hne.symm).1

/-- If labels tell functions apart, none of them clashes. The reference it looks like
    may be taken, and then it has a double, but that of its label is not. -/
theorem not_clashes (h : p.TellsApart fs) {ix : FunctionIndex} (hix : ix.Sound)
    (hexplains : p.Explains fs ix) (hf : f ∈ fs) : ¬FunctionIndex.Clashes p ix f := by
  rintro ⟨hnew, hnatural, hlabel⟩
  have happart := h f hf (h.hasDouble hix hexplains hf hnew hnatural)
  rcases Option.isSome_iff_exists.1 hlabel with ⟨c, hc⟩
  have hrefs := hix.owner hc
  have hne : c ≠ f := by
    rintro rfl
    rw [hnew] at hrefs
    cases hrefs
  rcases hexplains c _ hrefs with ⟨hmem, heq | ⟨heq, hdouble⟩⟩
  · exact (happart c hmem hne).1 heq
  · exact (happart c hmem hne).2 hdouble heq

/-- A new function has a reference that can be explained: if it was given that of its
    label, there is another function that looks like it. -/
theorem explains_add (h : p.TellsApart fs) {ix : FunctionIndex} (hix : ix.Sound)
    (hexplains : p.Explains fs ix) (hf : f ∈ fs) : p.Explains fs (ix.add p f) := by
  intro g ref hg
  rcases FunctionIndex.find?_refs_add_cases hg with hold | ⟨rfl, hnew, rfl⟩
  · exact hexplains g ref hold
  · refine ⟨hf, ?_⟩
    rw [hix.chooseRef_eq hnew]
    by_cases howned : ix.owners.contains (naturalRef p g)
    · rw [if_pos howned]
      exact Or.inr ⟨rfl, h.hasDouble hix hexplains hf hnew howned⟩
    · rw [if_neg howned]
      exact Or.inl rfl

/-- Indexing functions of the list keeps references distinct. What explains the
    references is carried along, since that is what rules out a clash. -/
theorem distinct_foldl (h : p.TellsApart fs) : ∀ (gs : List Nat), (∀ g ∈ gs, g ∈ fs) →
    ∀ {ix : FunctionIndex}, ix.Sound → p.Explains fs ix → ix.Distinct →
      (gs.foldl (FunctionIndex.add p) ix).Distinct := by
  intro gs
  induction gs with
  | nil => exact fun _ _ _ _ hdistinct => hdistinct
  | cons g rest ih =>
      intro hgs ix hix hexplains hdistinct
      rw [List.forall_mem_cons] at hgs
      exact ih hgs.2 (hix.add p g) (h.explains_add hix hexplains hgs.1)
        ((hix.distinct_add_iff p g).2 ⟨hdistinct, h.not_clashes hix hexplains hgs.1⟩)

/-- References are distinct, whatever the order, if labels tell functions apart. The
    condition is about the functions alone and can be decided before anything is
    indexed. -/
theorem distinct (h : p.TellsApart fs) {gs : List Nat} (hgs : ∀ g ∈ gs, g ∈ fs) :
    (gs.foldl (FunctionIndex.add p) {}).Distinct := by
  refine h.distinct_foldl gs hgs .empty ?_ ?_
  · intro f ref hf
    cases hf
  · intro f g ref hf
    cases hf

end TellsApart

end Program

end CallAtlas
