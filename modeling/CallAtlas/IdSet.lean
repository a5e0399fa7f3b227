/-!
# Sets of Node Numbers

Edges, call targets, kept nodes and hidden callees are all sets of node
numbers, and every answer that lists one lists it in ascending order. The set
is therefore the ascending list itself, with the proof that it ascends: two
sets with the same members are equal, and reading a set out needs no sorting.

Members are integers rather than natural numbers. A caller may put any number
into a filter, also one that no node can have.

## Main definitions

* `IdSet`: A finite set of numbers.
* `IdSet.insert`, `IdSet.erase`, `IdSet.ofList`: Making sets.

## Theorems

* `IdSet.mem_insert`, `IdSet.mem_erase`: The members after an edit.
* `IdSet.ext`: A set is determined by its members.
-/

namespace CallAtlas

/-- A finite set of numbers, kept as its ascending list. -/
structure IdSet where
  toList : List Int
  ascending : toList.Pairwise (· < ·)
deriving DecidableEq

namespace IdSet

/-- The set without members. -/
def empty : IdSet := ⟨[], .nil⟩

instance : Inhabited IdSet := ⟨empty⟩

instance : EmptyCollection IdSet := ⟨empty⟩

instance : Membership Int IdSet := ⟨fun s a => a ∈ s.toList⟩

instance (a : Int) (s : IdSet) : Decidable (a ∈ s) :=
  inferInstanceAs (Decidable (a ∈ s.toList))

/-- Whether a number is in the set. -/
def contains (s : IdSet) (a : Int) : Bool := decide (a ∈ s)

/-- The number of members. -/
def size (s : IdSet) : Nat := s.toList.length

/-- Whether the set has no members. -/
def isEmpty (s : IdSet) : Bool := s.toList.isEmpty

/-- Puts a number into its place of an ascending list. -/
def place (a : Int) : List Int → List Int
  | [] => [a]
  | b :: bs =>
    if a < b then a :: b :: bs
    else if a = b then b :: bs
    else b :: place a bs

theorem mem_place {a x : Int} {l : List Int} : x ∈ place a l ↔ x = a ∨ x ∈ l := by
  induction l with
  | nil => simp [place]
  | cons b bs ih =>
    unfold place
    split
    · simp
    · split
      · next h => subst h; simp
      · grind

theorem pairwise_place {a : Int} {l : List Int} (h : l.Pairwise (· < ·)) :
    (place a l).Pairwise (· < ·) := by
  induction l with
  | nil => simp [place]
  | cons b bs ih =>
    rw [List.pairwise_cons] at h
    unfold place
    split
    · next hab =>
      simp only [List.pairwise_cons, List.mem_cons]
      refine ⟨?_, h.1, h.2⟩
      rintro x (rfl | hx)
      · exact hab
      · exact Int.lt_trans hab (h.1 x hx)
    · split
      · exact List.pairwise_cons.2 h
      · refine List.pairwise_cons.2 ⟨?_, ih h.2⟩
        intro x hx
        rcases mem_place.1 hx with rfl | hx
        · omega
        · exact h.1 x hx

theorem length_place {a : Int} {l : List Int} (h : a ∉ l) :
    (place a l).length = l.length + 1 := by
  induction l with
  | nil => rfl
  | cons b bs ih =>
    rw [List.mem_cons, not_or] at h
    unfold place
    split
    · rfl
    · rw [if_neg h.1, List.length_cons, ih h.2, List.length_cons]

/-- Adds a member. -/
def insert (s : IdSet) (a : Int) : IdSet := ⟨place a s.toList, pairwise_place s.ascending⟩

/-- Takes a member out. -/
def erase (s : IdSet) (a : Int) : IdSet :=
  ⟨s.toList.filter (· ≠ a), s.ascending.filter _⟩

/-- Keeps the members that satisfy a test. -/
def filter (p : Int → Bool) (s : IdSet) : IdSet :=
  ⟨s.toList.filter p, s.ascending.filter _⟩

/-- The set of the numbers of a list. -/
def ofList (l : List Int) : IdSet := l.foldl insert empty

/-- Adds the numbers of a list. -/
def insertAll (s : IdSet) (l : List Int) : IdSet := l.foldl insert s

@[simp] theorem mem_insert {s : IdSet} {a x : Int} : x ∈ s.insert a ↔ x = a ∨ x ∈ s :=
  mem_place

theorem size_insert {s : IdSet} {a : Int} (h : a ∉ s) : (s.insert a).size = s.size + 1 :=
  length_place h

@[simp] theorem mem_erase {s : IdSet} {a x : Int} : x ∈ s.erase a ↔ x ∈ s ∧ x ≠ a := by
  change x ∈ s.toList.filter _ ↔ x ∈ s.toList ∧ _
  simp

@[simp] theorem mem_filter {s : IdSet} {p : Int → Bool} {x : Int} :
    x ∈ s.filter p ↔ x ∈ s ∧ p x := by
  change x ∈ s.toList.filter _ ↔ x ∈ s.toList ∧ _
  simp

@[simp] theorem not_mem_empty {x : Int} : x ∉ empty := by
  change x ∉ []
  simp

@[simp] theorem contains_iff {s : IdSet} {a : Int} : s.contains a ↔ a ∈ s := by
  simp [contains]

@[simp] theorem mem_insertAll {l : List Int} {s : IdSet} {x : Int} :
    x ∈ s.insertAll l ↔ x ∈ l ∨ x ∈ s := by
  induction l generalizing s with
  | nil => simp [insertAll]
  | cons a rest ih =>
    have h := ih (s := s.insert a)
    rw [insertAll] at h
    rw [insertAll, List.foldl_cons, h, mem_insert, List.mem_cons, or_left_comm, or_assoc]

@[simp] theorem mem_ofList {l : List Int} {x : Int} : x ∈ ofList l ↔ x ∈ l := by
  have h := mem_insertAll (l := l) (s := empty) (x := x)
  rw [insertAll] at h
  simp [ofList, h]

@[simp] theorem mem_toList {s : IdSet} {a : Int} : a ∈ s.toList ↔ a ∈ s := Iff.rfl

/-- A set is determined by its members. -/
theorem ext {s t : IdSet} (h : ∀ x, x ∈ s ↔ x ∈ t) : s = t := by
  obtain ⟨l, hl⟩ := s
  obtain ⟨m, hm⟩ := t
  have key : l = m := by
    induction l generalizing m with
    | nil =>
      cases m with
      | nil => rfl
      | cons b bs => exact absurd ((h b).2 (List.mem_cons_self)) (by change b ∉ []; simp)
    | cons a as ih =>
      cases m with
      | nil => exact absurd ((h a).1 (List.mem_cons_self)) (by change a ∉ []; simp)
      | cons b bs =>
        rw [List.pairwise_cons] at hl hm
        have mem : ∀ x, x ∈ a :: as ↔ x ∈ b :: bs := h
        have hab : a = b := by
          rcases List.mem_cons.1 ((mem a).1 List.mem_cons_self) with e | ha
          · exact e
          · rcases List.mem_cons.1 ((mem b).2 List.mem_cons_self) with e | hb
            · exact e.symm
            · have := hm.1 a ha
              have := hl.1 b hb
              omega
        subst hab
        congr 1
        refine ih hl.2 bs hm.2 fun x => ?_
        have hx := mem x
        change x ∈ as ↔ x ∈ bs
        constructor
        · intro hxa
          have := hl.1 x hxa
          rcases List.mem_cons.1 (hx.1 (List.mem_cons_of_mem _ hxa)) with e | hb
          · omega
          · exact hb
        · intro hxb
          have := hm.1 x hxb
          rcases List.mem_cons.1 (hx.2 (List.mem_cons_of_mem _ hxb)) with e | ha
          · omega
          · exact ha
  subst key
  rfl

theorem filter_filter (p q : Int → Bool) (s : IdSet) :
    (s.filter p).filter q = s.filter fun x => p x && q x := by
  apply IdSet.ext
  intro x
  simp [and_assoc]

theorem filter_congr {p q : Int → Bool} {s : IdSet} (h : ∀ x ∈ s, p x = q x) :
    s.filter p = s.filter q := by
  apply IdSet.ext
  intro x
  rw [mem_filter, mem_filter]
  exact and_congr_right fun hx => by rw [h x hx]

theorem filter_eq_self {p : Int → Bool} {s : IdSet} (h : ∀ x ∈ s, p x) : s.filter p = s := by
  apply IdSet.ext
  intro x
  rw [mem_filter]
  exact ⟨fun hx => hx.1, fun hx => ⟨hx, h x hx⟩⟩

end IdSet

end CallAtlas
