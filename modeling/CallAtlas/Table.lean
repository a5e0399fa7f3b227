/-!
# Tables

A finite map kept as the list of its entries. Where the order of entries shows
in an answer it is the order in which the keys first came, so a table is a list
and not a tree: a key that is written again keeps its place, and a key that was
erased and comes back stands at the end.

The list comes with the proof that no key stands in it twice, so the value at a
key is a matter of membership and dropping entries cannot bring others to light.

## Main definitions

* `Table`: A finite map with its keys in order of arrival.
* `Table.find?`, `Table.insert`, `Table.erase`: Reading and writing entries.

## Theorems

* `Table.find?_insert`: A write is seen at its key and nowhere else.
* `Table.find?_erase`: An erased key is gone, and no other.
* `Table.find?_mapValues`: Changed values are found where the old ones were.
* `Table.find?_eq_some_iff`: The value at a key is that of its entry.
* `Table.find?_filter`: Dropping entries leaves the values of the others.
* `Table.keys_insert`: A write adds its key at the end unless it is there.
-/

namespace CallAtlas

/-- A finite map with its keys in order of arrival. -/
structure Table (α β : Type) where
  entries : List (α × β) := []
  /-- No key stands in the list twice. -/
  nodup : (entries.map Prod.fst).Nodup := by simp
deriving DecidableEq

namespace Table

variable {α β γ : Type} [DecidableEq α]

/-- The map without entries. -/
def empty : Table α β := {}

instance : Inhabited (Table α β) := ⟨empty⟩

/-- The value at a key in a list of entries. -/
def findIn (k : α) : List (α × β) → Option β
  | [] => none
  | (k', v) :: rest => if k' = k then some v else findIn k rest

/-- Writes a value at a key of a list of entries. -/
def insertIn (k : α) (v : β) : List (α × β) → List (α × β)
  | [] => [(k, v)]
  | (k', v') :: rest => if k' = k then (k, v) :: rest else (k', v') :: insertIn k v rest

theorem map_fst_insertIn (k : α) (v : β) (l : List (α × β)) :
    (insertIn k v l).map Prod.fst =
      if k ∈ l.map Prod.fst then l.map Prod.fst else l.map Prod.fst ++ [k] := by
  induction l with
  | nil => simp [insertIn]
  | cons e rest ih =>
    obtain ⟨a, b⟩ := e
    by_cases h : a = k
    · simp [insertIn, h]
    · by_cases hm : k ∈ rest.map Prod.fst
      · rw [if_pos hm] at ih
        simp [insertIn, h, ih, hm]
      · rw [if_neg hm] at ih
        simp [insertIn, h, ih, hm, Ne.symm h]

theorem nodup_insertIn (k : α) (v : β) {l : List (α × β)} (h : (l.map Prod.fst).Nodup) :
    ((insertIn k v l).map Prod.fst).Nodup := by
  rw [map_fst_insertIn]
  split
  · exact h
  · next hk =>
    rw [List.nodup_append]
    exact ⟨h, by simp, by rintro a ha b hb rfl; simp_all⟩

/-- The value at a key. -/
def find? (t : Table α β) (k : α) : Option β := findIn k t.entries

/-- Whether a key has a value. -/
def contains (t : Table α β) (k : α) : Bool := (t.find? k).isSome

/-- Writes a value; a key that is already there keeps its place. -/
def insert (t : Table α β) (k : α) (v : β) : Table α β :=
  ⟨insertIn k v t.entries, nodup_insertIn k v t.nodup⟩

/-- Keeps the entries that satisfy a test. -/
def filter (p : α → β → Bool) (t : Table α β) : Table α β :=
  ⟨t.entries.filter fun e => p e.1 e.2, (List.filter_sublist.map _).nodup t.nodup⟩

/-- Removes a key. -/
def erase (t : Table α β) (k : α) : Table α β := t.filter fun k' _ => k' ≠ k

/-- The keys in order of arrival. -/
def keys (t : Table α β) : List α := t.entries.map Prod.fst

/-- The values in the order of their keys. -/
def values (t : Table α β) : List β := t.entries.map Prod.snd

/-- The number of entries. -/
def size (t : Table α β) : Nat := t.entries.length

/-- Changes every value. -/
def mapValues (f : β → γ) (t : Table α β) : Table α γ :=
  ⟨t.entries.map fun e => (e.1, f e.2), by
    rw [List.map_map]
    exact t.nodup⟩

/-- The table that results from writing the entries of a list one by one. -/
def ofList (l : List (α × β)) : Table α β := l.foldl (fun t e => t.insert e.1 e.2) empty

theorem findIn_insertIn (k k' : α) (v : β) (l : List (α × β)) :
    findIn k' (insertIn k v l) = if k = k' then some v else findIn k' l := by
  induction l with
  | nil => simp [insertIn, findIn]
  | cons e rest ih =>
    obtain ⟨a, b⟩ := e
    by_cases h : a = k
    · subst h
      by_cases h' : a = k' <;> simp [insertIn, findIn, h']
    · by_cases h' : a = k'
      · subst h'
        simp [insertIn, findIn, h, Ne.symm h]
      · simp [insertIn, findIn, h, h', ih]

/-- A write is seen at its key and nowhere else. -/
theorem find?_insert (t : Table α β) (k k' : α) (v : β) :
    (t.insert k v).find? k' = if k = k' then some v else t.find? k' :=
  findIn_insertIn k k' v t.entries

theorem contains_insert {t : Table α β} {k k' : α} {v : β} :
    (t.insert k v).contains k' ↔ k = k' ∨ t.contains k' := by
  rw [contains, contains, find?_insert]
  by_cases h : k = k'
  · simp [h]
  · simp [h]

theorem findIn_eq_some_iff {l : List (α × β)} (hl : (l.map Prod.fst).Nodup) (k : α) (v : β) :
    findIn k l = some v ↔ (k, v) ∈ l := by
  induction l with
  | nil => simp [findIn]
  | cons e rest ih =>
    obtain ⟨a, b⟩ := e
    rw [List.map_cons, List.nodup_cons] at hl
    by_cases h : a = k
    · subst h
      have habsent : (a, v) ∉ rest := fun hm => hl.1 (List.mem_map.2 ⟨_, hm, rfl⟩)
      simp [findIn, habsent, eq_comm]
    · simp [findIn, h, Ne.symm h, ih hl.2]

/-- The value at a key is that of its entry. -/
theorem find?_eq_some_iff (t : Table α β) (k : α) (v : β) :
    t.find? k = some v ↔ (k, v) ∈ t.entries :=
  findIn_eq_some_iff t.nodup k v

@[simp] theorem find?_empty (k : α) : (empty : Table α β).find? k = none := rfl

omit [DecidableEq α] in
@[simp] theorem keys_empty : (empty : Table α β).keys = [] := rfl

/-- Dropping entries leaves the values of the others. -/
theorem find?_filter (p : α → β → Bool) (t : Table α β) (k : α) :
    (t.filter p).find? k = (t.find? k).filter (p k) := by
  apply Option.ext
  intro v
  rw [find?_eq_some_iff, Option.filter_eq_some_iff, find?_eq_some_iff]
  simp [filter]

/-- An erased key is gone, and no other. -/
theorem find?_erase (t : Table α β) (k k' : α) :
    (t.erase k).find? k' = if k = k' then none else t.find? k' := by
  rw [erase, find?_filter]
  by_cases h : k = k'
  · rw [if_pos h]
    simp [h]
  · rw [if_neg h]
    cases t.find? k' <;> simp [Ne.symm h]

/-- Changed values are found where the old ones were. -/
theorem find?_mapValues (f : β → γ) (t : Table α β) (k : α) :
    (t.mapValues f).find? k = (t.find? k).map f := by
  apply Option.ext
  intro v
  rw [find?_eq_some_iff, Option.map_eq_some_iff]
  simp only [mapValues, List.mem_map, Prod.mk.injEq, Prod.exists, find?_eq_some_iff]
  constructor
  · rintro ⟨a, b, hm, rfl, rfl⟩
    exact ⟨b, hm, rfl⟩
  · rintro ⟨b, hm, rfl⟩
    exact ⟨k, b, hm, rfl, rfl⟩

omit [DecidableEq α] in
@[simp] theorem keys_mapValues (f : β → γ) (t : Table α β) : (t.mapValues f).keys = t.keys := by
  simp [keys, mapValues]

/-- Only the values that a table has decide what changing them gives. -/
theorem mapValues_congr {f f' : β → γ} {t : Table α β}
    (h : ∀ k v, t.find? k = some v → f v = f' v) : t.mapValues f = t.mapValues f' := by
  have hentries : t.entries.map (fun e => (e.1, f e.2)) = t.entries.map fun e => (e.1, f' e.2) := by
    refine List.map_congr_left fun e he => ?_
    rw [h e.1 e.2 ((t.find?_eq_some_iff e.1 e.2).2 he)]
  simp only [mapValues, hentries]

omit [DecidableEq α] in
@[simp] theorem mapValues_id (t : Table α β) : t.mapValues (fun v => v) = t := by
  simp [mapValues]

omit [DecidableEq α] in
theorem mapValues_mapValues {δ : Type} (f : β → γ) (f' : γ → δ) (t : Table α β) :
    (t.mapValues f).mapValues f' = t.mapValues fun v => f' (f v) := by
  simp only [mapValues, List.map_map]
  rfl

/-- A write adds its key at the end unless it is there. -/
theorem keys_insert (t : Table α β) (k : α) (v : β) :
    (t.insert k v).keys = if k ∈ t.keys then t.keys else t.keys ++ [k] :=
  map_fst_insertIn k v t.entries

theorem mem_keys {t : Table α β} {k : α} : k ∈ t.keys ↔ (t.find? k).isSome := by
  rw [Option.isSome_iff_exists]
  simp only [find?_eq_some_iff]
  simp [keys]

end Table

end CallAtlas
