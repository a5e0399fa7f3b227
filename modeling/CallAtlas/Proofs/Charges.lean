import CallAtlas.Refine.Budget
import CallAtlas.Word
import Mathlib.Data.List.Induction

/-!
# Charges on One Budget

A budget is charged again and again, and it keeps counting after it has refused a charge.
What it counts with is a word. A word that has seen too much forgets: it holds the exact
sum of the charges only up to a multiple of its range, and a sum past the highest word
comes out as a small one. A budget that was overdrawn is then as good as new.

So there are two answers to a charge, the one of the budget and the one that exact sums
give. `refuses_exact_iff` says for every charge whether they are the same, whatever the
limit. With no charge below zero the sums grow, so a refusal stands as long as the sum
fits into a word. At the first charge that no longer fits the word turns negative, and a
limit that is not negative itself then grants what it has to refuse.

## Main definitions

* `Budget.after`: A budget after some charges.
* `Budget.refuses`: Whether a charge is refused that follows some others.
* `Budget.total`: What charges come to, as a number without a bound.
* `Budget.Exact`: Every charge is answered as exact sums tell.
* `Budget.Lasting`: A budget that has refused a charge refuses all later ones.

## Theorems

* `Budget.after_eq`: What is counted is the total, as far as a word can tell.
* `Budget.refuses_exact_iff`: When a charge is answered as the exact sum tells.
* `Budget.exists_split_of_bound_le`: The first charge that no longer fits.
* `Budget.charges_exact_iff`: When a budget is right about all its charges.
-/

namespace CallAtlas

namespace Budget

variable {limit n m : Int64} {ns ms pre : List Int64}

/-- What charges come to, as a number without a bound. -/
def total (ns : List Int64) : Int := ns.foldr (fun n sum => n.toInt + sum) 0

/-- A budget after some charges. -/
def after (b : Budget) (ns : List Int64) : Budget := ns.foldl (fun b n => (b.charge n).1) b

/-- Whether a charge is refused that follows some others. -/
def refuses (limit : Int64) (before : List Int64) (n : Int64) : Bool :=
  !((after { limit } before).charge n).2

/-- Every charge is answered as exact sums tell. -/
def Exact (limit : Int64) (ns : List Int64) : Prop :=
  ∀ pre n post, ns = pre ++ n :: post →
    (refuses limit pre n ↔ limit.toInt < total (pre ++ [n]))

/-- A budget that has refused a charge refuses all later ones. -/
def Lasting (limit : Int64) (ns : List Int64) : Prop :=
  ∀ pre n mid m post, ns = pre ++ n :: (mid ++ m :: post) →
    refuses limit pre n → refuses limit (pre ++ n :: mid) m

/-! ## Totals -/

theorem total_cons (n : Int64) (ns : List Int64) : total (n :: ns) = n.toInt + total ns := rfl

/-- What charges come to does not depend on where they are cut in two. -/
theorem total_append (ns ms : List Int64) : total (ns ++ ms) = total ns + total ms := by
  induction ns with
  | nil => exact (Int.zero_add _).symm
  | cons n rest ih =>
      rw [List.cons_append, total_cons, total_cons]
      omega

theorem total_singleton (n : Int64) : total [n] = n.toInt := Int.add_zero _

/-- Charges that are not negative come to nothing negative. -/
theorem total_nonneg (hns : ∀ n ∈ ns, 0 ≤ n) : 0 ≤ total ns := by
  induction ns with
  | nil => exact Int.le_refl 0
  | cons n rest ih =>
      have hn : 0 ≤ n.toInt := Int64.le_iff_toInt_le.1 (hns n List.mem_cons_self)
      have hrest := ih fun m hm => hns m (List.mem_cons_of_mem n hm)
      rw [total_cons]
      omega

/-- Charges that come after others make the total no less. -/
theorem total_le_total_append (hms : ∀ m ∈ ms, 0 ≤ m) : total ns ≤ total (ns ++ ms) := by
  have hnonneg := total_nonneg hms
  rw [total_append]
  omega

theorem toInt_lt_bound (n : Int64) : n.toInt < Word.bound := n.toInt_lt

/-! ## One charge after others -/

/-- What is counted is the total, as far as a word can tell. Whether a charge was
    refused makes no difference, since a refused charge is counted like any other. -/
theorem after_eq (b : Budget) (ns : List Int64) :
    b.after ns = { b with used := b.used + Int64.ofInt (total ns) } := by
  induction ns generalizing b with
  | nil =>
      have hzero : b.used + Int64.ofInt (total []) = b.used := Int64.add_zero b.used
      rw [hzero]
      rfl
  | cons n rest ih =>
      -- Adding words and then taking the sum for a word is the same as the other way round.
      have hused : b.used + n + Int64.ofInt (total rest) =
          b.used + Int64.ofInt (total (n :: rest)) := by
        rw [total_cons, Int64.ofInt_add, Int64.ofInt_toInt, Int64.add_assoc]
      calc b.after (n :: rest) = (b.charge n).1.after rest := rfl
        _ = { b with used := b.used + n + Int64.ofInt (total rest) } := ih (b.charge n).1
        _ = { b with used := b.used + Int64.ofInt (total (n :: rest)) } := by rw [hused]

/-- A charge is refused if what is counted with it is above the limit. -/
theorem refuses_iff : refuses limit ns n ↔ limit < Int64.ofInt (total (ns ++ [n])) := by
  have hused : (0 : Int64) + Int64.ofInt (total ns) + n = Int64.ofInt (total (ns ++ [n])) := by
    rw [total_append, total_singleton, Int64.ofInt_add, Int64.ofInt_toInt, Int64.zero_add]
  simp only [refuses, after_eq, charge, hused, Bool.not_eq_true', decide_eq_false_iff_not,
    Int64.not_le]

theorem toInt_ofInt_of_lt {sum : Int} (hnonneg : 0 ≤ sum) (hfits : sum < Word.bound) :
    (Int64.ofInt sum).toInt = sum :=
  Int64.toInt_ofInt_of_le (by omega) hfits

/-- A sum that is past the highest word but not past twice as much turns negative. This
    is what makes an overdrawn budget forget. -/
theorem toInt_ofInt_of_le {sum : Int} (hpast : Word.bound ≤ sum) (htwice : sum < 2 * Word.bound) :
    (Int64.ofInt sum).toInt = sum - 2 * Word.bound := by
  have hsize : ((Int64.size : Nat) : Int) = 2 * Word.bound := rfl
  have hlow : -Word.bound ≤ sum - 2 * Word.bound := by omega
  rw [← Int64.toInt_ofInt_of_le hlow (by rw [Word.bound] at *; omega), Int64.toInt_ofInt,
    Int64.toInt_ofInt, ← hsize, Int.sub_bmod_right]

/-- A charge is answered as the exact sum tells if the sum fits into a word, or if the
    word that is left of it happens to be above the limit too. No limit is as high as a
    sum that does not fit, so for such a sum the right answer is always to refuse. -/
theorem refuses_exact_iff (hns : ∀ m ∈ ns ++ [n], 0 ≤ m) :
    (refuses limit ns n ↔ limit.toInt < total (ns ++ [n])) ↔
      total (ns ++ [n]) < Word.bound ∨ limit < Int64.ofInt (total (ns ++ [n])) := by
  rw [refuses_iff]
  by_cases hfits : total (ns ++ [n]) < Word.bound
  · rw [Int64.lt_iff_toInt_lt, toInt_ofInt_of_lt (total_nonneg hns) hfits]
    exact iff_of_true Iff.rfl (Or.inl hfits)
  · -- No limit is as high as the sum, so the exact answer is to refuse.
    have hover : limit.toInt < total (ns ++ [n]) := by
      have hlimit := toInt_lt_bound limit
      omega
    rw [iff_true_right hover, or_iff_right hfits]

/-- A charge after one that had to be refused is refused under the same condition. By
    then the exact sum is over the limit, and charges that are not negative keep it
    there. -/
theorem refuses_later_iff {mid : List Int64} (hns : ∀ k ∈ pre ++ n :: mid ++ [m], 0 ≤ k)
    (hover : limit.toInt < total (pre ++ [n])) :
    refuses limit (pre ++ n :: mid) m ↔ total (pre ++ n :: mid ++ [m]) < Word.bound ∨
      limit < Int64.ofInt (total (pre ++ n :: mid ++ [m])) := by
  have hsplit : pre ++ n :: mid ++ [m] = pre ++ [n] ++ (mid ++ [m]) := by simp
  have hgrown : total (pre ++ [n]) ≤ total (pre ++ n :: mid ++ [m]) := by
    rw [hsplit] at hns ⊢
    exact total_le_total_append (List.forall_mem_append.1 hns).2
  rw [← refuses_exact_iff hns, iff_true_right (Int.lt_of_lt_of_le hover hgrown)]

/-! ## All charges -/

/-- If charges come to more than fits, one of them is the first with which they do. The
    induction takes charges off the end, where the total was last below the bound. -/
theorem exists_split_of_bound_le (hover : Word.bound ≤ total ns) :
    ∃ pre n post, ns = pre ++ n :: post ∧ total pre < Word.bound ∧
      Word.bound ≤ total (pre ++ [n]) := by
  induction ns using List.reverseRecOn with
  | nil => exact absurd hover (by decide)
  | append_singleton pre n ih =>
      by_cases hpre : total pre < Word.bound
      · exact ⟨pre, n, [], rfl, hpre, hover⟩
      · rcases ih (by omega) with ⟨pre', n', post, rfl, hfirst⟩
        exact ⟨pre', n', post ++ [n], by simp, hfirst⟩

/-- As long as the total fits, every sum on the way does, and every charge is answered right. -/
theorem exact_of_total_lt (hns : ∀ n ∈ ns, 0 ≤ n) (hfits : total ns < Word.bound) :
    Exact limit ns := by
  rintro pre n post rfl
  rw [List.append_cons] at hns hfits
  rcases List.forall_mem_append.1 hns with ⟨hpre, hpost⟩
  exact (refuses_exact_iff hpre).2
    (Or.inl (Int.lt_of_le_of_lt (total_le_total_append hpost) hfits))

/-- As long as the total fits, a budget that is overdrawn stays overdrawn. -/
theorem lasting_of_total_lt (hns : ∀ n ∈ ns, 0 ≤ n) (hfits : total ns < Word.bound) :
    Lasting limit ns := by
  rintro pre n mid m post rfl hrefused
  have hover := (exact_of_total_lt hns hfits pre n _ rfl).1 hrefused
  have hsplit : pre ++ n :: (mid ++ m :: post) = pre ++ n :: mid ++ [m] ++ post := by simp
  rw [hsplit] at hns hfits
  rcases List.forall_mem_append.1 hns with ⟨hmid, hpost⟩
  exact (refuses_later_iff hmid hover).2
    (Or.inl (Int.lt_of_le_of_lt (total_le_total_append hpost) hfits))

/-- A limit that is not negative is wrong about the first charge that no longer fits.
    Before this charge the sum fits, so with it the sum is less than twice the bound,
    and its word is negative. The budget then grants what it has to refuse. -/
theorem total_lt_of_exact (hns : ∀ n ∈ ns, 0 ≤ n) (hlimit : 0 ≤ limit) (hexact : Exact limit ns) :
    total ns < Word.bound := by
  by_contra hover
  rcases exists_split_of_bound_le (Int.not_lt.1 hover) with ⟨pre, n, post, rfl, hfits, hpast⟩
  rw [List.append_cons] at hns
  rcases (refuses_exact_iff (List.forall_mem_append.1 hns).1).1 (hexact pre n post rfl) with
    hlt | hlt
  · omega
  · -- One charge cannot take the sum past twice the bound, so the word is negative.
    have htotal : total (pre ++ [n]) = total pre + n.toInt := by
      rw [total_append, total_singleton]
    have hn := toInt_lt_bound n
    have hzero : 0 ≤ limit.toInt := Int64.le_iff_toInt_le.1 hlimit
    rw [Int64.lt_iff_toInt_lt, toInt_ofInt_of_le hpast (by omega)] at hlt
    omega

/-- A budget counts what it is charged as far as a word can tell. It is right about its
    charges as long as they come to no more than fits, and for a limit that is not
    negative only then. The highest limit refuses nothing.

    One charge after others is answered right if the sum fits or if what is left of it
    in a word is above the limit too. A limit that is not negative cannot rely on this
    second case: the first charge that no longer fits leaves a negative word. -/
theorem charges_exact_iff (limit : Int64) (ns : List Int64) (hns : ∀ n ∈ ns, 0 ≤ n) :
    (total ns < Word.bound → Exact limit ns ∧ Lasting limit ns) ∧
    (0 ≤ limit → (Exact limit ns ↔ total ns < Word.bound)) ∧
    (∀ pre n post, ns = pre ++ n :: post →
      (refuses limit pre n ↔ limit < Int64.ofInt (total (pre ++ [n]))) ∧
      ((refuses limit pre n ↔ limit.toInt < total (pre ++ [n])) ↔
        total (pre ++ [n]) < Word.bound ∨ limit < Int64.ofInt (total (pre ++ [n])))) ∧
    (limit = Int64.maxValue → ∀ pre n post, ns = pre ++ n :: post → ¬refuses limit pre n) := by
  refine ⟨fun hfits => ⟨exact_of_total_lt hns hfits, lasting_of_total_lt hns hfits⟩,
    fun hlimit => ⟨total_lt_of_exact hns hlimit, exact_of_total_lt hns⟩, ?_, ?_⟩
  · rintro pre n post rfl
    rw [List.append_cons] at hns
    exact ⟨refuses_iff, refuses_exact_iff (List.forall_mem_append.1 hns).1⟩
  · rintro rfl pre n post -
    rw [refuses_iff, Int64.not_lt]
    exact Int64.le_maxValue _

/-- The third charge overdraws the budget, and the fourth is refused though it costs nothing. -/
theorem charges_exact_iff_small :
    (∀ n ∈ [600, 400, 1, 0], (0 : Int64) ≤ n) ∧ total [600, 400, 1, 0] < Word.bound ∧
      Exact 1000 [600, 400, 1, 0] ∧ Lasting 1000 [600, 400, 1, 0] ∧
      ¬refuses 1000 [600] 400 ∧ refuses 1000 [600, 400] 1 ∧ refuses 1000 [600, 400, 1] 0 := by
  have hns : ∀ n ∈ [600, 400, 1, 0], (0 : Int64) ≤ n := by simp
  have hfits : total [600, 400, 1, 0] < Word.bound := by decide
  rcases (charges_exact_iff 1000 [600, 400, 1, 0] hns).1 hfits with ⟨hexact, hlasting⟩
  exact ⟨hns, hfits, hexact, hlasting, by decide, by decide, by decide⟩

/-- A budget of no steps at all that refuses a charge and grants the same charge again. -/
theorem overdrawn_budget_recovers :
    (∀ n ∈ [Int64.maxValue, Int64.maxValue], 0 ≤ n) ∧
      refuses 0 [] Int64.maxValue ∧ ¬refuses 0 [Int64.maxValue] Int64.maxValue ∧
      ¬Exact 0 [Int64.maxValue, Int64.maxValue] ∧ ¬Lasting 0 [Int64.maxValue, Int64.maxValue] := by
  have hfirst : refuses 0 [] Int64.maxValue := by decide
  have hsecond : ¬refuses 0 [Int64.maxValue] Int64.maxValue := by decide
  refine ⟨by simp [Int64.le_maxValue], hfirst, hsecond, fun hexact => ?_, fun hlasting => ?_⟩
  · exact hsecond ((hexact [Int64.maxValue] Int64.maxValue [] rfl).2 (by decide))
  · exact hsecond (hlasting [] Int64.maxValue [] Int64.maxValue [] rfl hfirst)

end Budget

end CallAtlas
