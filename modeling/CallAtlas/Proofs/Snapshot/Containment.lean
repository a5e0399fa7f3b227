import CallAtlas.Proofs.Snapshot.Shelf

/-!
# Damaged Entries

A store may hold anything: one entry of a pair without the other, metadata that nobody
can read, data that is not what its hash says, entries under keys that saving never
writes. This module says what the calls make of such a store. Nothing is asked of the
entries, of the hash, of compression or of the readers: they are those of any format.

All that a call finds or changes it finds or changes at keys. The two keys of a snapshot
determine its identifier, so a call that writes or removes leaves the keys of every other
identifier alone, and loading reads the keys of one identifier only. Damage in one snapshot
is therefore never seen in another.

Listing does not know identifiers. It goes by the two ends of a key, and these may share
a colon: there is one key that has both ends and belongs to no snapshot. What is listed
under each key is read once, in the order of keys, and the sort by time keeps that order
among the snapshots of one moment.

## Main definitions

* `Call.subject`: The identifier whose entries a call writes or removes.

## Theorems

* `Store.isMetaKey_iff`: The keys that listing looks at.
* `Store.load_eq_notFound_iff`, `Store.load_eq_ok_iff`: What loading checks.
* `Store.exists_list`: What listing finds, and in which order.
* `Session.find?_after`: A call leaves the keys of other snapshots alone.
* `Session.load_afterAll`: Any history leaves the loading of other snapshots alone.
* `Session.faults_contained`: What calls make of a store with any entries.
-/

namespace CallAtlas

/-! ## Sorting by time -/

/-- A stable sort leaves elements that tie in the order they had. They are sorted
    already, so they are a sublist of the result in that order, and the result has no
    others of them. -/
theorem filter_mergeSort_of_tied {α : Type} {le : α → α → Bool}
    (trans : ∀ a b c, le a b = true → le b c = true → le a c = true)
    (total : ∀ a b, (le a b || le b a) = true) {p : α → Bool}
    (hp : ∀ a b, p a = true → p b = true → le a b = true) (l : List α) :
    (l.mergeSort le).filter p = l.filter p := by
  have htied : (l.filter p).Pairwise fun a b => le a b = true :=
    List.pairwise_of_forall_mem_list fun a ha b hb =>
      hp a b (List.mem_filter.1 ha).2 (List.mem_filter.1 hb).2
  have hsub : (l.filter p).Sublist ((l.mergeSort le).filter p) := by
    have hfilter := (List.sublist_mergeSort trans total htied List.filter_sublist).filter p
    simpa only [List.filter_filter, Bool.and_self] using hfilter
  exact (hsub.eq_of_length ((List.mergeSort_perm l le).filter p).length_eq.symm).symm

namespace Store

variable {E T : Type} [EntryFormat E T] {s : Store E} {life : Lifetime} {id : String}

/-! ## Keys -/

/-- The ends of a key of metadata stand before and behind an identifier, or they share a
    colon. In the second case the key belongs to no snapshot, and listing looks at it
    all the same. -/
theorem isMetaKey_iff {key : String} :
    isMetaKey key = true ↔ (∃ id, key = metaKey id) ∨ key = "cg:snap:meta" := by
  constructor
  · intro hkey
    rw [isMetaKey, Bool.and_eq_true, String.startsWith_string_iff, endsWith_metaEnd_iff] at hkey
    rcases hkey with ⟨⟨rest, hrest⟩, front, hfront⟩
    rcases List.append_eq_append_iff.1 (hrest.trans hfront.symm) with
      ⟨inner, rfl, rfl⟩ | ⟨shared, hstart, hend⟩
    · refine Or.inl ⟨String.ofList inner, String.toList_inj.1 ?_⟩
      rw [metaKey, toList_key, String.toList_ofList, List.append_assoc]
      exact hrest.symm
    · -- What is shared ends the one and begins the other.
      have hshared : ∀ l ∈ metaEnd.toList.inits, l ∈ keyStart.toList.tails →
          l = [] ∨ l = [':'] := by decide
      rcases hshared shared ((List.mem_inits _ _).2 ⟨rest, hend.symm⟩)
        ((List.mem_tails _ _).2 ⟨front, hstart.symm⟩) with rfl | rfl
      · refine Or.inl ⟨"", String.toList_inj.1 ?_⟩
        rw [← hrest, metaKey, toList_key, hend]
        rfl
      · refine Or.inr (String.toList_inj.1 ?_)
        obtain rfl : "meta".toList = rest := List.tail_eq_of_cons_eq hend
        exact hrest.symm
  · rintro (⟨id, rfl⟩ | rfl)
    · exact isMetaKey_metaKey id
    · rw [isMetaKey, Bool.and_eq_true, String.startsWith_string_iff, endsWith_metaEnd_iff]
      decide

/-! ## Loading -/

/-- Data can be read exactly if it can be unpacked and then parsed. -/
theorem unpack_eq_ok_iff {e : E} {doc : Document} :
    unpack id e = .ok doc ↔ ∃ content, EntryFormat.unpack e = .ok content ∧
      EntryFormat.document? (E := E) content = some doc := by
  rw [unpack]
  cases EntryFormat.unpack e with
  | error f => simp
  | ok content => cases hdoc : EntryFormat.document? (E := E) content <;> simp [hdoc]

/-- Data that cannot be read is no missing snapshot. -/
theorem unpack_ne_notFound {e : E} {other : String} : unpack id e ≠ .error (.notFound other) := by
  rw [unpack]
  cases EntryFormat.unpack e with
  | error f => simp
  | ok content => cases hdoc : EntryFormat.document? (E := E) content <;> simp [hdoc]

/-- A snapshot is missing exactly if one of its entries is. The other faults, in the
    metadata, in the packed data or in the document, are reported under other
    names, so none of them is taken for a missing snapshot. -/
theorem load_eq_notFound_iff (hlife : life.poll.1 = none) {serial : Nat} :
    s.load life serial id = .error (.notFound id) ↔
      s.entries.find? (dataKey id) = none ∨ s.entries.find? (metaKey id) = none := by
  rw [load, whileWaiting_of_waiting hlife]
  cases s.entries.find? (dataKey id) with
  | none => simp
  | some data =>
      cases s.entries.find? (metaKey id) with
      | none => simp
      | some info =>
          -- Both entries are there, and no later fault is called a missing snapshot.
          simp only [reduceCtorEq, or_self, iff_false]
          cases hmeta : EntryFormat.metadata? info with
          | none => simp
          | some m =>
              simp only
              split
              · simp
              · cases hunpack : unpack id data with
                | error e =>
                    intro h
                    exact unpack_ne_notFound (hunpack.trans (congrArg _ (Except.error.inj h)))
                | ok doc => cases hdecode : doc.decode serial <;> simp [hdecode]

/-- A graph comes only out of entries that pass every check: the metadata is read, the
    hash is the one recorded or none is, and the data is unpacked, parsed and decoded. -/
theorem load_eq_ok_iff (hlife : life.poll.1 = none) {serial : Nat} {g : Graph} {m : Metadata} :
    s.load life serial id = .ok (g, m) ↔
      ∃ data info content doc, s.entries.find? (dataKey id) = some data ∧
        s.entries.find? (metaKey id) = some info ∧ EntryFormat.metadata? info = some m ∧
        (m.contentHash = "" ∨ m.contentHash = EntryFormat.hash data) ∧
        EntryFormat.unpack data = .ok content ∧
        EntryFormat.document? (E := E) content = some doc ∧ doc.decode serial = .ok g := by
  rw [load, whileWaiting_of_waiting hlife]
  constructor
  · intro h
    split at h
    · next data info hdata hinfo =>
      split at h
      · cases h
      · next m' hmeta =>
        dsimp only at h
        split at h
        · cases h
        · next hhash =>
          split at h
          · cases h
          · next doc hunpack =>
            split at h
            · cases h
            · next g' hdecode =>
              cases h
              rcases unpack_eq_ok_iff.1 hunpack with ⟨content, hcontent, hdoc⟩
              refine ⟨data, info, content, doc, hdata, hinfo, hmeta, ?_, hcontent, hdoc, hdecode⟩
              -- Without a recorded hash there is nothing to compare.
              by_cases hempty : m.contentHash = ""
              · exact Or.inl hempty
              · exact Or.inr (not_not.1 fun hne => hhash ⟨hempty, hne⟩)
    · cases h
  · rintro ⟨data, info, content, doc, hdata, hinfo, hmeta, hhash, hcontent, hdoc, hdecode⟩
    have hchecked : ¬(m.contentHash ≠ "" ∧ m.contentHash ≠ EntryFormat.hash data) := by
      rintro ⟨hsome, hother⟩
      exact hhash.elim hsome hother
    simp only [hdata, hinfo, hmeta, if_neg hchecked, unpack_eq_ok_iff.2 ⟨content, hcontent, hdoc⟩,
      hdecode]

/-! ## Deleting -/

omit [EntryFormat E T] in
/-- Both entries of a snapshot go, and no other. -/
theorem find?_removed (s : Store E) (id key : String) :
    ((s.remove (dataKey id)).remove (metaKey id)).entries.find? key =
      if key = dataKey id ∨ key = metaKey id then none else s.entries.find? key := by
  change ((s.entries.erase (dataKey id)).erase (metaKey id)).find? key = _
  rw [Table.find?_erase, Table.find?_erase]
  by_cases hmeta : key = metaKey id
  · simp [hmeta]
  · by_cases hdata : key = dataKey id
    · simp [hdata]
    · simp [hmeta, hdata, Ne.symm hmeta, Ne.symm hdata]

/-! ## Listing -/

/-- The entries of metadata that can be read, in the order of their keys. -/
def readable (s : Store E) : List (String × Metadata) :=
  (metaEntries s).filterMap fun e => (EntryFormat.metadata? e.2).map (e.1, ·)

/-- What can be read is what stands under a key of metadata and parses. -/
theorem mem_readable {key : String} {m : Metadata} :
    (key, m) ∈ s.readable ↔ isMetaKey key = true ∧
      ∃ info, s.entries.find? key = some info ∧ EntryFormat.metadata? info = some m := by
  simp only [readable, metaEntries, List.mem_filterMap, List.mem_mergeSort, List.mem_filter,
    Option.map_eq_some_iff, Table.find?_eq_some_iff, Prod.mk.injEq, Prod.exists]
  constructor
  · rintro ⟨key, info, ⟨hmem, hkey⟩, m, hmeta, rfl, rfl⟩
    exact ⟨hkey, info, hmem, hmeta⟩
  · rintro ⟨hkey, info, hmem, hmeta⟩
    exact ⟨key, info, ⟨hmem, hkey⟩, m, hmeta, rfl, rfl⟩

/-- The entries are in the order of their keys, and no key comes twice. -/
theorem readable_ascending (s : Store E) : s.readable.Pairwise fun a b => a.1 < b.1 := by
  have hsorted : (metaEntries s).Pairwise fun a b => a.1 ≤ b.1 := by
    refine (List.pairwise_mergeSort ?_ ?_ _).imp fun hab => of_decide_eq_true hab
    · intro a b c hab hbc
      exact decide_eq_true (String.le_trans (of_decide_eq_true hab) (of_decide_eq_true hbc))
    · intro a b
      simpa only [Bool.or_eq_true, decide_eq_true_iff] using String.le_total a.1 b.1
  -- The table has every key once, and sorting keeps it so.
  have hdistinct : (metaEntries s).Pairwise fun a b => a.1 ≠ b.1 := by
    have hkeys : ((metaEntries s).map Prod.fst).Nodup :=
      (((List.mergeSort_perm _ _).map Prod.fst).nodup_iff).2
        ((List.filter_sublist.map Prod.fst).nodup s.entries.nodup)
    exact List.pairwise_map.1 hkeys
  refine List.pairwise_filterMap.2 ((hsorted.and hdistinct).imp ?_)
  intro a b hab x hx y hy
  rcases Option.map_eq_some_iff.1 hx with ⟨_, _, rfl⟩
  rcases Option.map_eq_some_iff.1 hy with ⟨_, _, rfl⟩
  exact String.not_le.1 fun hba => hab.2 (String.le_antisymm hab.1 hba)

/-- Listing finds the metadata that can be read, each key once, newest first, and by key
    among the snapshots of one moment. The list is given with its keys, which the
    program drops, so that the order among ties can be told. -/
theorem exists_list (hlife : life.poll.1 = none) :
    ∃ listed : List (String × Metadata), s.list life = .ok (listed.map Prod.snd) ∧
      (listed.map Prod.fst).Nodup ∧
      (∀ key m, (key, m) ∈ listed ↔ isMetaKey key = true ∧
        ∃ info, s.entries.find? key = some info ∧ EntryFormat.metadata? info = some m) ∧
      listed.Pairwise fun a b => b.2.createdAtMilli < a.2.createdAtMilli ∨
        b.2.createdAtMilli = a.2.createdAtMilli ∧ a.1 < b.1 := by
  let newer : Metadata → Metadata → Bool := fun a b => b.createdAtMilli ≤ a.createdAtMilli
  let le : String × Metadata → String × Metadata → Bool := fun a b => newer a.2 b.2
  have trans : ∀ a b c, le a b = true → le b c = true → le a c = true := by
    intro a b c hab hbc
    simp only [le, newer, decide_eq_true_iff] at hab hbc ⊢
    omega
  have total : ∀ a b, (le a b || le b a) = true := by
    intro a b
    simp only [le, newer, Bool.or_eq_true, decide_eq_true_iff]
    omega
  refine ⟨s.readable.mergeSort le, ?_, ?_, fun key m => ?_, ?_⟩
  · have hmap : (s.readable.mergeSort le).map Prod.snd =
        (s.readable.map Prod.snd).mergeSort newer := List.map_mergeSort fun _ _ _ _ => rfl
    have hfound : s.readable.map Prod.snd =
        (metaEntries s).filterMap fun e => EntryFormat.metadata? e.2 := by
      rw [readable, List.map_filterMap]
      simp only [Option.map_map, Function.comp_def, Option.map_id']
    rw [list, whileWaiting_of_waiting hlife, hmap, hfound]
  · refine (((List.mergeSort_perm _ _).map Prod.fst).nodup_iff).2 (List.pairwise_map.2 ?_)
    refine s.readable_ascending.imp ?_
    intro a b hab heq
    rw [heq] at hab
    exact String.lt_irrefl _ hab
  · rw [List.mem_mergeSort, mem_readable]
  · rw [List.pairwise_iff_forall_sublist]
    intro a b hab
    have hle := List.pairwise_iff_forall_sublist.1
      (List.pairwise_mergeSort trans total s.readable) hab
    simp only [le, newer, decide_eq_true_iff] at hle
    rcases Int.lt_or_eq_of_le hle with hlt | heq
    · exact Or.inl hlt
    · -- Those of one moment stand as they did before.
      let tied : String × Metadata → Bool := fun e => e.2.createdAtMilli = a.2.createdAtMilli
      have hkept := filter_mergeSort_of_tied trans total (p := tied) (by
        intro x y hx hy
        simp only [tied, le, newer, decide_eq_true_iff] at hx hy ⊢
        omega) s.readable
      have hsub := hab.filter tied
      rw [hkept] at hsub
      have hpair : [a, b].filter tied = [a, b] := by simp [tied, heq]
      rw [hpair] at hsub
      exact Or.inr ⟨heq, List.pairwise_iff_forall_sublist.1 s.readable_ascending
        (hsub.trans List.filter_sublist)⟩

end Store

/-- The identifier whose entries a call writes or removes. -/
def Call.subject : Call → Option String
  | save _ _ _ id _ _ _ | delete _ id => some id
  | edit _ _ | load _ _ _ | list _ => none

namespace Session

variable {E T : Type} [EntryFormat E T]

/-- A call leaves every key alone that is not one of its subject's. Only saving and
    deleting write to the store, and only if the caller still waits. -/
theorem find?_after (s : Session E) {c : Call} {key : String}
    (hkey : ∀ id, c.subject = some id → key ≠ Store.dataKey id ∧ key ≠ Store.metaKey id) :
    (s.after c).store.entries.find? key = s.store.entries.find? key := by
  cases c with
  | edit k e => rfl
  | load life serial id => rfl
  | list life => rfl
  | save life k filter id createdAtMilli projectRoot label =>
      rcases hkey id rfl with ⟨hdata, hmeta⟩
      cases hlife : life.poll.1 with
      | some cause => rw [Session.after, save_of_ended hlife]
      -- The two keys that are written are not the one that is looked at.
      | none =>
          rw [Session.after, save_of_waiting hlife]
          change ((s.store.entries.insert (Store.dataKey id) _).insert
            (Store.metaKey id) _).find? key = _
          rw [Table.find?_insert, if_neg hmeta.symm, Table.find?_insert, if_neg hdata.symm]
  | delete life id =>
      rcases hkey id rfl with ⟨hdata, hmeta⟩
      cases hlife : life.poll.1 with
      | some cause => rw [Session.after, Store.delete, Store.whileWaiting_of_ended hlife]
      | none =>
          cases hentry : s.store.entries.find? (Store.metaKey id) with
          | none => rw [Session.after, Store.delete_of_none hlife hentry]
          | some e =>
              rw [Session.after, Store.delete_of_some hlife hentry]
              exact (Store.find?_removed s.store id key).trans (if_neg (by simp [hdata, hmeta]))

/-- A call makes no difference to loading a snapshot that is not its subject. Loading
    looks at two keys, and keys of different identifiers differ. -/
theorem load_after (s : Session E) {c : Call} {other : String} (hc : c.subject ≠ some other)
    (life : Lifetime) (serial : Nat) :
    (s.after c).store.load life serial other = s.store.load life serial other := by
  have hne : ∀ id, c.subject = some id → other ≠ id := by
    rintro id hid rfl
    exact hc hid
  refine Store.load_congr (s.find?_after fun id hid => ?_) (s.find?_after fun id hid => ?_)
    life serial
  · exact ⟨fun h => hne id hid (Store.dataKey_inj.1 h), Store.dataKey_ne_metaKey other id⟩
  · exact ⟨Store.metaKey_ne_dataKey other id, fun h => hne id hid (Store.metaKey_inj.1 h)⟩

/-- Any history leaves the loading of other snapshots alone. -/
theorem load_afterAll {other : String} : ∀ (cs : List Call) (s : Session E),
    (∀ c ∈ cs, c.subject ≠ some other) → ∀ life serial,
      (s.afterAll cs).store.load life serial other = s.store.load life serial other := by
  intro cs
  induction cs with
  | nil => exact fun s _ life serial => rfl
  | cons c rest ih =>
      intro s hcs life serial
      rw [List.forall_mem_cons] at hcs
      exact (ih (s.after c) hcs.2 life serial).trans (s.load_after hcs.1 life serial)

/-- What calls make of a store with any entries, in any format. Nothing is assumed about
    how the entries got there, so this holds of a store that was damaged or filled by
    another program. A fault stays with the snapshot that has it. -/
theorem faults_contained (s : Session E) (life : Lifetime) (hlife : life.poll.1 = none) :
    -- Keys determine what they are the keys of.
    (Function.Injective Store.dataKey ∧ Function.Injective Store.metaKey ∧
      ∀ a b, Store.dataKey a ≠ Store.metaKey b) ∧
    -- Loading and listing change nothing.
    (∀ serial id, (s.after (.load life serial id)).store = s.store) ∧
    (s.after (.list life)).store = s.store ∧
    -- A snapshot is missing if one of its entries is, and loaded if every check passes.
    (∀ serial id,
      (s.store.load life serial id = .error (.notFound id) ↔
        s.store.entries.find? (Store.dataKey id) = none ∨
          s.store.entries.find? (Store.metaKey id) = none) ∧
      ∀ g m, s.store.load life serial id = .ok (g, m) ↔
        ∃ data info content doc, s.store.entries.find? (Store.dataKey id) = some data ∧
          s.store.entries.find? (Store.metaKey id) = some info ∧
          EntryFormat.metadata? info = some m ∧
          (m.contentHash = "" ∨ m.contentHash = EntryFormat.hash data) ∧
          EntryFormat.unpack data = .ok content ∧
          EntryFormat.document? (E := E) content = some doc ∧ doc.decode serial = .ok g) ∧
    -- Deleting asks for the metadata alone, and takes away both entries and no other.
    (∀ id,
      (s.store.delete life id = .error (.notFound id) ∧
          (s.after (.delete life id)).store = s.store ↔
        s.store.entries.find? (Store.metaKey id) = none) ∧
      (s.store.entries.find? (Store.metaKey id) ≠ none →
        ∃ rest, s.store.delete life id = .ok rest ∧ (s.after (.delete life id)).store = rest ∧
          (∀ key, rest.entries.find? key =
            if key = Store.dataKey id ∨ key = Store.metaKey id then none
            else s.store.entries.find? key) ∧
          ∀ later, (Lifetime.poll later).1 = none →
            (∀ serial, rest.load later serial id = .error (.notFound id)) ∧
            rest.delete later id = .error (.notFound id))) ∧
    -- Other snapshots are loaded as before.
    (∀ calls other, (∀ c ∈ calls, Call.subject c ≠ some other) → ∀ life serial,
      (s.afterAll calls).store.load life serial other = s.store.load life serial other) ∧
    -- Listing passes over what cannot be read, and sorts the rest by time and then by key.
    (∃ listed : List (String × Metadata), s.store.list life = .ok (listed.map Prod.snd) ∧
      (listed.map Prod.fst).Nodup ∧
      (∀ key m, (key, m) ∈ listed ↔ Store.isMetaKey key = true ∧
        ∃ info, s.store.entries.find? key = some info ∧ EntryFormat.metadata? info = some m) ∧
      listed.Pairwise fun a b => b.2.createdAtMilli < a.2.createdAtMilli ∨
        b.2.createdAtMilli = a.2.createdAtMilli ∧ a.1 < b.1) ∧
    ∀ key, Store.isMetaKey key = true ↔ (∃ id, key = Store.metaKey id) ∨ key = "cg:snap:meta" := by
  refine ⟨⟨fun a b => Store.dataKey_inj.1, fun a b => Store.metaKey_inj.1,
      Store.dataKey_ne_metaKey⟩,
    fun serial id => rfl, rfl,
    fun serial id => ⟨Store.load_eq_notFound_iff hlife, fun g m => Store.load_eq_ok_iff hlife⟩,
    fun id => ⟨⟨fun h => ?_, fun h => ?_⟩, fun h => ?_⟩,
    fun calls other hcalls => load_afterAll calls s hcalls,
    Store.exists_list hlife, fun key => Store.isMetaKey_iff⟩
  · cases hentry : s.store.entries.find? (Store.metaKey id) with
    | none => rfl
    | some e => exact absurd (h.1.symm.trans (Store.delete_of_some hlife hentry)) (by simp)
  · refine ⟨Store.delete_of_none hlife h, ?_⟩
    rw [Session.after, Store.delete_of_none hlife h]
  · rcases Option.ne_none_iff_exists'.1 h with ⟨e, hentry⟩
    have hdelete := Store.delete_of_some hlife hentry
    have hgone : ((s.store.remove (Store.dataKey id)).remove (Store.metaKey id)).entries.find?
        (Store.metaKey id) = none := by
      rw [Store.find?_removed, if_pos (Or.inr rfl)]
    exact ⟨_, hdelete, by rw [Session.after, hdelete], Store.find?_removed s.store id,
      fun later hlater => ⟨fun serial => (Store.load_eq_notFound_iff hlater).2 (Or.inr hgone),
        Store.delete_of_none hlater hgone⟩⟩

/-- Data without metadata, metadata that cannot be read, two snapshots of which one has
    lost its data, and a key that belongs to nobody. -/
def attic : Session where
  store := ⟨.ofList [(Store.dataKey "half", .text "data"), (Store.metaKey "torn", .packed ""),
    (Store.dataKey "torn", .text ""), (Store.metaKey "old", .record { id := "old" }),
    ("cg:snap:meta", .record { id := "stray", createdAtMilli := 1 }),
    (Store.metaKey "new", .record { id := "new", createdAtMilli := 2 }),
    (Store.dataKey "new", .document { schema := Document.currentSchema })]⟩

/-- Half a snapshot is neither loaded nor deleted, one that cannot be read is not loaded, and
    both are passed over in the list. Deleting one that has lost its data succeeds. -/
theorem faults_contained_attic :
    attic.store.load {} 0 "half" = .error (.notFound "half") ∧
      attic.store.delete {} "half" = .error (.notFound "half") ∧
      (∀ g m, attic.store.load {} 0 "torn" ≠ .ok (g, m)) ∧
      (∃ listed : List (String × Metadata), attic.store.list {} = .ok (listed.map Prod.snd) ∧
        (Store.metaKey "old", { id := "old" }) ∈ listed ∧
        ∀ m, (Store.metaKey "torn", m) ∉ listed) ∧
      ∃ rest, attic.store.delete {} "old" = .ok rest ∧
        rest.delete {} "old" = .error (.notFound "old") ∧
        (attic.after (.delete {} "old")).store.load {} 7 "new" = attic.store.load {} 7 "new" := by
  rcases faults_contained attic {} rfl with ⟨_, _, _, hload, hdelete, hothers, hlist, _⟩
  -- The first has data only, the second has metadata that cannot be read, and the third lost
  -- its data.
  have htorn : attic.store.entries.find? (Store.metaKey "torn") = some (.packed "") := by
    decide +kernel
  have hold : attic.store.entries.find? (Store.metaKey "old") = some (.record { id := "old" }) := by
    decide +kernel
  refine ⟨(hload 0 "half").1.2 (Or.inr (by decide +kernel)),
    ((hdelete "half").1.2 (by decide +kernel)).1, fun g m hok => ?_, ?_, ?_⟩
  · rcases ((hload 0 "torn").2 g m).1 hok with ⟨_, info, _, _, _, hinfo, hmeta, _⟩
    obtain rfl : .packed "" = info := Option.some.inj (htorn.symm.trans hinfo)
    cases hmeta
  · rcases hlist with ⟨listed, hlisted, _, hmem, _⟩
    refine ⟨listed, hlisted, (hmem _ _).2 ⟨Store.isMetaKey_metaKey _, _, hold, rfl⟩, fun m hm => ?_⟩
    rcases ((hmem _ _).1 hm).2 with ⟨info, hinfo, hmeta⟩
    obtain rfl : .packed "" = info := Option.some.inj (htorn.symm.trans hinfo)
    cases hmeta
  · rcases (hdelete "old").2 (by simp [hold]) with ⟨rest, hrest, _, _, hlater⟩
    refine ⟨rest, hrest, (hlater {} rfl).2, ?_⟩
    exact hothers [.delete {} "old"] "new" (by simp [Call.subject]) {} 7

end Session

end CallAtlas
