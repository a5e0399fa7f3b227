import CallAtlas.Proofs.Snapshot.Readable
import CallAtlas.Snapshot.Store
import Mathlib.Data.List.Flatten
import Mathlib.Logic.Function.Basic

/-!
# The Store as a Shelf

A store holds two entries for each snapshot, under keys made from its identifier, and
finds snapshots by these keys, by the ends of keys and by the times in the metadata.
Whoever uses it thinks of something simpler: a shelf with the snapshots that were saved
and not deleted since, in the order of saving. A snapshot on the shelf is a graph as it
was seen when it was saved, with its metadata.

A history is a list of calls, some of which come from callers that wait no longer, and
between them the graphs are edited. Two things are asked of it: a new identifier and a
new time are not those of a snapshot on the shelf, and the sites that are saved have
dispatch kinds with names.

What carries the proof is that the store holds exactly the entries of the shelf, pair
by pair and in the same order. Writing under new keys appends a pair, deleting takes a
pair out, and everything that a call finds is read off the pairs.

What the entries are made of does not matter. Any format will do in which documents and
metadata can be read back from what was written; its hash may be any function, since data
that was not touched has the hash that it was saved with.

## Main definitions

* `EntryFormat.Invertible`: What is written can be read back.
* `Seen`: A graph as it is saved, whole or through a filter.
* `Kept`: A snapshot on the shelf.
* `Call`: A call of the store, or an edit of a graph between calls.
* `Session`: The graphs and the store.
* `Shelf`: The graphs and the snapshots.
* `Session.Holds`: The store holds the entries of the shelf.

## Theorems

* `Store.isMetaKey_metaKey`, `Store.isMetaKey_dataKey`: The ends tell the keys apart.
* `Session.Holds.afterAll`: The store holds the entries of the shelf after any history.
* `Session.Holds.load_kept`, `Session.Holds.load_missing`: What loading finds.
* `Session.Holds.list_eq`: What listing finds.
* `Session.answers_of_shelf`: The store answers as the shelf does.
-/

namespace CallAtlas

/-! ## Keys -/

namespace Store

theorem toList_key (id stop : String) :
    (keyStart ++ id ++ stop).toList = keyStart.toList ++ id.toList ++ stop.toList := by
  rw [String.toList_append, String.toList_append]

/-- Between fixed ends keys differ where identifiers do. -/
theorem key_inj {a b stop : String} : keyStart ++ a ++ stop = keyStart ++ b ++ stop ↔ a = b := by
  refine ⟨fun h => ?_, fun h => by rw [h]⟩
  have hlist := congrArg String.toList h
  rw [toList_key, toList_key, List.append_cancel_right_eq, List.append_cancel_left_eq] at hlist
  exact String.toList_inj.1 hlist

theorem dataKey_inj {a b : String} : dataKey a = dataKey b ↔ a = b := key_inj

theorem metaKey_inj {a b : String} : metaKey a = metaKey b ↔ a = b := key_inj

theorem endsWith_metaEnd_iff {key : String} :
    key.endsWith metaEnd ↔ metaEnd.toList <:+ key.toList := by
  rw [← String.endsWith_toSlice, String.Slice.endsWith_string_iff, String.copy_toSlice]

/-- A key of metadata has both ends. -/
theorem isMetaKey_metaKey (id : String) : isMetaKey (metaKey id) = true := by
  rw [isMetaKey, Bool.and_eq_true, String.startsWith_string_iff, endsWith_metaEnd_iff, metaKey,
    toList_key]
  refine ⟨?_, List.suffix_append _ _⟩
  rw [List.append_assoc]
  exact List.prefix_append _ _

/-- Both ends are equally long, so a key that has one does not have the other. -/
theorem isMetaKey_dataKey (id : String) : isMetaKey (dataKey id) = false := by
  rw [Bool.eq_false_iff, isMetaKey, Ne, Bool.and_eq_true, endsWith_metaEnd_iff, dataKey, toList_key]
  rintro ⟨_, hend⟩
  have hsame := List.suffix_of_suffix_length_le hend (List.suffix_append _ ":data".toList)
    (by decide)
  exact absurd (hsame.eq_of_length (by decide)) (by decide)

/-- No key of data is one of metadata. -/
theorem dataKey_ne_metaKey (a b : String) : dataKey a ≠ metaKey b := by
  intro h
  have hkey := isMetaKey_dataKey a
  rw [h, isMetaKey_metaKey] at hkey
  exact Bool.false_ne_true hkey.symm

theorem metaKey_ne_dataKey (a b : String) : metaKey a ≠ dataKey b := (dataKey_ne_metaKey b a).symm

/-- For a caller that waits no longer nothing is done. -/
theorem whileWaiting_of_ended {α : Type} {life : Lifetime} {cause : EndCause}
    (h : life.poll.1 = some cause) (call : Unit → Except StoreError α) :
    whileWaiting life call = .error (.ended cause) := by
  rw [whileWaiting]
  split
  · next hpoll =>
      rw [hpoll, Option.some.injEq] at h
      rw [h]
  · next hpoll =>
      rw [hpoll] at h
      cases h

/-- For a caller that still waits the call is made. -/
theorem whileWaiting_of_waiting {α : Type} {life : Lifetime} (h : life.poll.1 = none)
    (call : Unit → Except StoreError α) : whileWaiting life call = call () := by
  rw [whileWaiting]
  split
  · next hpoll =>
      rw [hpoll] at h
      cases h
  · rfl

section Format

variable {E T : Type} [EntryFormat E T] {s s' : Store E} {life : Lifetime} {id : String}

/-- Loading reads two entries, and stores that agree on them agree on the answer. -/
theorem load_congr (hdata : s.entries.find? (dataKey id) = s'.entries.find? (dataKey id))
    (hmeta : s.entries.find? (metaKey id) = s'.entries.find? (metaKey id)) (life : Lifetime)
    (serial : Nat) : s.load life serial id = s'.load life serial id := by
  simp only [load, hdata, hmeta]

omit [EntryFormat E T] in
/-- Deleting looks for the metadata, and without it there is nothing to delete. -/
theorem delete_of_none (hlife : life.poll.1 = none) (h : s.entries.find? (metaKey id) = none) :
    s.delete life id = .error (.notFound id) := by
  rw [delete, whileWaiting_of_waiting hlife, Table.contains, h]
  rfl

omit [EntryFormat E T] in
/-- If there is metadata both entries go, whether or not there is data. -/
theorem delete_of_some (hlife : life.poll.1 = none) {e : E}
    (h : s.entries.find? (metaKey id) = some e) :
    s.delete life id = .ok ((s.remove (dataKey id)).remove (metaKey id)) := by
  rw [delete, whileWaiting_of_waiting hlife, Table.contains, h]
  rfl

end Format

end Store

/-- What is written can be read back: metadata as it is, and a document by unpacking.
    Nothing is asked of sizes and hashes, and nothing of entries that were not written
    here. -/
structure EntryFormat.Invertible (E : Type) {T : Type} [EntryFormat E T] : Prop where
  metadata : ∀ m : Metadata, metadata? (ofMetadata m : E) = some m
  document : ∀ d : Document, ∃ content : T,
    unpack (ofDocument d : E) = .ok content ∧ document? (E := E) content = some d

/-- The entries in use keep what was written as it is. -/
theorem Entry.invertible : EntryFormat.Invertible Entry where
  metadata _ := rfl
  document d := ⟨.inl d, rfl, rfl⟩

theorem Table.insertIn_of_not_mem {α β : Type} [DecidableEq α] {k : α} {v : β} :
    ∀ {l : List (α × β)}, k ∉ l.map Prod.fst → Table.insertIn k v l = l ++ [(k, v)]
  | [], _ => rfl
  | (k', v') :: rest, h => by
      rw [List.map_cons, List.mem_cons, not_or] at h
      rw [Table.insertIn, if_neg (Ne.symm h.1), Table.insertIn_of_not_mem h.2, List.cons_append]

/-- A table keeps the order in which its keys were first written. -/
theorem Table.entries_insert {α β : Type} [DecidableEq α] {t : Table α β} {k : α}
    (h : t.find? k = none) (v : β) : (t.insert k v).entries = t.entries ++ [(k, v)] := by
  refine Table.insertIn_of_not_mem fun hk => ?_
  have hsome := Table.mem_keys.1 hk
  rw [h] at hsome
  cases hsome

/-! ## Histories -/

/-- A graph as it is saved, whole or through a filter. -/
inductive Seen where
  | whole (g : Graph)
  | through (v : View)

namespace Seen

/-- What is asked of a call graph, asked of a graph as it is saved. -/
def ask {α : Type} (s : Seen) (f : {G : Type} → [CallGraph G] → G → α) : α :=
  match s with
  | whole g => f g
  | through v => f v

/-- The graph with some number, whole or through a filter. -/
def of (graphs : Nat → Graph) (k : Nat) : Option Filter → Seen
  | none => .whole (graphs k)
  | some f => .through ⟨graphs k, f⟩

def document (s : Seen) : Document := s.ask Document.encode

/-- Every site to be saved has a dispatch kind with a name. -/
def Named : Seen → Prop
  | whole g => CallGraph.Named g
  | through v => CallGraph.Named v

instance (s : Seen) : Decidable s.Named :=
  match s with
  | whole g => inferInstanceAs (Decidable (CallGraph.Named g))
  | through v => inferInstanceAs (Decidable (CallGraph.Named v))

def Lawful : Seen → Prop
  | whole g => CallGraph.Lawful g
  | through v => CallGraph.Lawful v

theorem lawful_of {graphs : Nat → Graph} (h : ∀ k, (graphs k).Obtainable) (k : Nat)
    (f : Option Filter) : (of graphs k f).Lawful := by
  cases f with
  | none => exact (CallGraph.Obtained.graph (h k)).lawful
  | some f => exact (CallGraph.Obtained.view (v := ⟨graphs k, f⟩) (h k)).lawful

theorem exists_decode {s : Seen} (hs : s.Lawful) (hnamed : s.Named) (serial : Nat) :
    ∃ g, s.document.decode serial = .ok g := by
  cases s with
  | whole g => exact CallGraph.exists_decode_encode hs hnamed serial
  | through v => exact CallGraph.exists_decode_encode hs hnamed serial

theorem length_nodes {s : Seen} (hs : s.Lawful) :
    (s.document.nodes.length : Int) = s.ask CallGraph.nodeCount := by
  cases s with
  | whole g => exact (congrArg Nat.cast (List.length_map _)).trans hs.nodeCount_eq.symm
  | through v => exact (congrArg Nat.cast (List.length_map _)).trans hs.nodeCount_eq.symm

theorem length_edges {s : Seen} (hs : s.Lawful) :
    s.document.edges.length = s.ask CallGraph.countEdges := by
  cases s with
  | whole g => exact (List.length_map _).trans (CallGraph.length_edges hs)
  | through v => exact (List.length_map _).trans (CallGraph.length_edges hs)

end Seen

/-- A snapshot on the shelf. -/
structure Kept where
  seen : Seen
  info : Metadata

section Entries

variable {E T : Type} [EntryFormat E T]

/-- The two entries of a snapshot. -/
def Kept.entries (x : Kept) : List (String × E) :=
  [(Store.dataKey x.info.id, EntryFormat.ofDocument x.seen.document),
    (Store.metaKey x.info.id, EntryFormat.ofMetadata x.info)]

/-- The ends of the keys pick out the second entry of each pair. -/
theorem Kept.filter_isMetaKey (kept : List Kept) :
    ((kept.flatMap (Kept.entries (E := E))).filter fun e => Store.isMetaKey e.1) =
      kept.map fun x => (Store.metaKey x.info.id, EntryFormat.ofMetadata x.info) := by
  induction kept with
  | nil => rfl
  | cons x rest ih =>
      rw [List.flatMap_cons, List.filter_append, ih]
      simp [Kept.entries, Store.isMetaKey_dataKey, Store.isMetaKey_metaKey]

/-- Without the entries of one snapshot the pairs of the others are left. -/
theorem Kept.filter_entries (id : String) (kept : List Kept) :
    (((kept.flatMap (Kept.entries (E := E))).filter fun e => e.1 ≠ Store.dataKey id).filter
        fun e => e.1 ≠ Store.metaKey id) =
      (kept.filter fun x => x.info.id ≠ id).flatMap Kept.entries := by
  induction kept with
  | nil => rfl
  | cons x rest ih =>
      rw [List.flatMap_cons, List.filter_append, List.filter_append, ih]
      by_cases hx : x.info.id = id
      · simp [Kept.entries, hx]
      · simp [Kept.entries, hx, Store.dataKey_inj, Store.metaKey_inj, Store.dataKey_ne_metaKey,
          Store.metaKey_ne_dataKey]

end Entries

/-- A call of the store, or an edit of a graph between calls. -/
inductive Call where
  | edit (k : Nat) (e : Graph.Edit)
  | save (life : Lifetime) (k : Nat) (filter : Option Filter) (id : String)
      (createdAtMilli : Int) (projectRoot label : String)
  | load (life : Lifetime) (serial : Nat) (id : String)
  | list (life : Lifetime)
  | delete (life : Lifetime) (id : String)

namespace Call

/-- The graphs after a call; only an edit changes one. -/
def edited (graphs : Nat → Graph) : Call → Nat → Graph
  | edit k e => Function.update graphs k ((graphs k).after e)
  | _ => graphs

/-- Whether a call takes a snapshot off the shelf. -/
def drops : Call → String → Bool
  | delete life id, other => life.poll.1 = none ∧ id = other
  | _, _ => false

/-- Edits lead from obtainable graphs to obtainable ones, and calls change none. -/
theorem obtainable_edited {graphs : Nat → Graph} (hg : ∀ k, (graphs k).Obtainable) (c : Call)
    (k : Nat) : (c.edited graphs k).Obtainable := by
  cases c with
  | edit j e =>
      change (Function.update graphs j ((graphs j).after e) k).Obtainable
      -- Only the graph with this number is edited.
      by_cases hk : k = j
      · subst hk
        rw [Function.update_self]
        exact (hg k).afterAll [e]
      · rw [Function.update_of_ne hk]
        exact hg k
  | save => exact hg k
  | load => exact hg k
  | list => exact hg k
  | delete => exact hg k

end Call

/-- The graphs and the store. -/
structure Session (E : Type := Entry) where
  graphs : Nat → Graph := Graph.fresh
  store : Store E := .empty

namespace Session

section Format

variable {E T : Type} [EntryFormat E T]

/-- Saves a graph, whole or through a filter. -/
def save (s : Session E) (life : Lifetime) (k : Nat) (filter : Option Filter) (id : String)
    (createdAtMilli : Int) (projectRoot label : String) : Except StoreError (Store E × Metadata) :=
  (Seen.of s.graphs k filter).ask fun g =>
    s.store.save life g id createdAtMilli projectRoot label

/-- The session after a call. A call that fails leaves the store as it was. -/
def after (s : Session E) (c : Call) : Session E :=
  { graphs := c.edited s.graphs
    store :=
      match c with
      | .save life k filter id createdAtMilli projectRoot label =>
        match s.save life k filter id createdAtMilli projectRoot label with
        | .ok (store, _) => store
        | .error _ => s.store
      | .delete life id =>
        match s.store.delete life id with
        | .ok store => store
        | .error _ => s.store
      | _ => s.store }

def afterAll (s : Session E) (cs : List Call) : Session E := cs.foldl after s

theorem save_of_ended {life : Lifetime} {cause : EndCause} (hlife : life.poll.1 = some cause)
    (s : Session E) (k : Nat) (filter : Option Filter) (id : String) (createdAtMilli : Int)
    (projectRoot label : String) :
    s.save life k filter id createdAtMilli projectRoot label = .error (.ended cause) := by
  cases filter <;>
    simp only [Session.save, Seen.of, Seen.ask, Store.save, Store.whileWaiting_of_ended hlife]

/-- Both entries are written, and their metadata is the answer. -/
theorem save_of_waiting {life : Lifetime} (hlife : life.poll.1 = none) (s : Session E) (k : Nat)
    (filter : Option Filter) (id : String) (createdAtMilli : Int) (projectRoot label : String) :
    let doc := (Seen.of s.graphs k filter).document
    let info := Store.describe doc id createdAtMilli projectRoot label E
    s.save life k filter id createdAtMilli projectRoot label =
      .ok ((s.store.put (Store.dataKey id) (EntryFormat.ofDocument doc)).put (Store.metaKey id)
        (EntryFormat.ofMetadata info), info) := by
  cases filter <;>
    simp only [Session.save, Seen.of, Seen.ask, Seen.document, Store.save,
      Store.whileWaiting_of_waiting hlife]

end Format

end Session

/-- The graphs and the snapshots. -/
structure Shelf where
  graphs : Nat → Graph := Graph.fresh
  /-- The snapshots in order of saving. -/
  kept : List Kept := []

namespace Shelf

section Format

variable (E : Type) {T : Type} [EntryFormat E T]

/-- The snapshot that a call puts on the shelf, with the size and the hash that its
    document has in the format. -/
def saved (h : Shelf) : Call → Option Kept
  | .save life k filter id createdAtMilli projectRoot label =>
    if life.poll.1 = none then
      let seen := Seen.of h.graphs k filter
      some ⟨seen, Store.describe seen.document id createdAtMilli projectRoot label E⟩
    else none
  | _ => none

/-- The shelf after a call. -/
def after (h : Shelf) (c : Call) : Shelf :=
  { graphs := c.edited h.graphs
    kept := (h.kept.filter fun x => !c.drops x.info.id) ++ (h.saved E c).toList }

def afterAll (h : Shelf) (cs : List Call) : Shelf := cs.foldl (after E) h

/-- What is asked of a call: identifier and time are new, and the sites have dispatch
    kinds with names. -/
def Allows (h : Shelf) (c : Call) : Prop :=
  ∀ new ∈ h.saved E c, new.seen.Named ∧
    ∀ x ∈ h.kept, x.info.id ≠ new.info.id ∧ x.info.createdAtMilli < new.info.createdAtMilli

/-- What is asked of a history. -/
def Admits : Shelf → List Call → Prop
  | _, [] => True
  | h, c :: rest => h.Allows E c ∧ Admits (h.after E c) rest

instance (h : Shelf) (c : Call) : Decidable (h.Allows E c) :=
  match hc : h.saved E c with
  | none => .isTrue fun new hnew => by rw [hc] at hnew; cases hnew
  | some new =>
    decidable_of_iff (new.seen.Named ∧ ∀ x ∈ h.kept, x.info.id ≠ new.info.id ∧
        x.info.createdAtMilli < new.info.createdAtMilli)
      (by rw [Allows, hc]; exact ⟨fun h _ hnew => Option.some.inj hnew ▸ h, fun h => h new rfl⟩)

instance decidableAdmits : (h : Shelf) → (cs : List Call) → Decidable (h.Admits E cs)
  | _, [] => .isTrue trivial
  | h, c :: rest =>
    have := decidableAdmits (h.after E c) rest
    inferInstanceAs (Decidable (h.Allows E c ∧ (h.after E c).Admits E rest))

variable {E}

theorem mem_after {h : Shelf} {c : Call} {x : Kept} :
    x ∈ (h.after E c).kept ↔
      (x ∈ h.kept ∧ c.drops x.info.id = false) ∨ h.saved E c = some x := by
  rw [after, List.mem_append, List.mem_filter, Option.mem_toList, Bool.not_eq_true']

/-- A snapshot is on the shelf if it was there or was put there, and was not taken off
    since. The shelf was defined call by call, and this is what it comes to over a
    history. -/
theorem mem_afterAll {x : Kept} :
    ∀ {cs : List Call} {h : Shelf}, x ∈ (h.afterAll E cs).kept ↔
      (x ∈ h.kept ∧ ∀ c ∈ cs, c.drops x.info.id = false) ∨
      ∃ before c later, cs = before ++ c :: later ∧ (h.afterAll E before).saved E c = some x ∧
        ∀ c' ∈ later, c'.drops x.info.id = false := by
  intro cs
  induction cs with
  | nil =>
      intro h
      simp [afterAll]
  | cons c rest ih =>
      intro h
      change x ∈ ((h.after E c).afterAll E rest).kept ↔ _
      rw [ih, mem_after]
      constructor
      · rintro (⟨⟨hx, hc⟩ | hsaved, hrest⟩ | ⟨before, c', later, rfl, hsaved, hlater⟩)
        · exact Or.inl ⟨hx, List.forall_mem_cons.2 ⟨hc, hrest⟩⟩
        · exact Or.inr ⟨[], c, rest, rfl, hsaved, hrest⟩
        · exact Or.inr ⟨c :: before, c', later, rfl, hsaved, hlater⟩
      · rintro (⟨hx, hall⟩ | ⟨before, c', later, hsplit, hsaved, hlater⟩)
        · rw [List.forall_mem_cons] at hall
          exact Or.inl ⟨Or.inl ⟨hx, hall.1⟩, hall.2⟩
        · -- The call that saved it is the first one of the list or one of the rest.
          cases before with
          | nil =>
              cases hsplit
              exact Or.inl ⟨Or.inr hsaved, hlater⟩
          | cons c'' before =>
              cases hsplit
              exact Or.inr ⟨before, c', later, rfl, hsaved, hlater⟩

end Format

end Shelf

/-! ## The entries of a shelf -/

namespace Session

variable {E T : Type} [EntryFormat E T]

/-- The store holds the entries of the shelf, pair by pair and in order of saving. -/
structure Holds (s : Session E) (h : Shelf) : Prop where
  graphs_eq : s.graphs = h.graphs
  entries_eq : s.store.entries.entries = h.kept.flatMap Kept.entries
  obtainable : ∀ k, (h.graphs k).Obtainable
  ids : h.kept.Pairwise fun a b => a.info.id ≠ b.info.id
  times : h.kept.Pairwise fun a b => a.info.createdAtMilli < b.info.createdAtMilli
  lawful : ∀ x ∈ h.kept, x.seen.Lawful
  named : ∀ x ∈ h.kept, x.seen.Named
  info_eq : ∀ x ∈ h.kept, x.info = Store.describe x.seen.document x.info.id
    x.info.createdAtMilli x.info.projectRoot x.info.label E

variable {s : Session E} {h : Shelf}

/-- At the start store and shelf are empty. -/
theorem holds_start : Holds ({} : Session E) {} where
  graphs_eq := rfl
  entries_eq := rfl
  obtainable := Graph.obtainable_fresh
  ids := List.Pairwise.nil
  times := List.Pairwise.nil
  lawful _ hx := absurd hx (by simp)
  named _ hx := absurd hx (by simp)
  info_eq _ hx := absurd hx (by simp)

namespace Holds

theorem find?_dataKey (hh : Holds s h) {id : String} {e : E} :
    s.store.entries.find? (Store.dataKey id) = some e ↔
      ∃ x ∈ h.kept, x.info.id = id ∧ EntryFormat.ofDocument x.seen.document = e := by
  rw [Table.find?_eq_some_iff, hh.entries_eq, List.mem_flatMap]
  refine exists_congr fun x => and_congr_right fun _ => ?_
  simp [Kept.entries, Store.dataKey_inj, Store.dataKey_ne_metaKey, @eq_comm _ id, @eq_comm _ e]

theorem find?_metaKey (hh : Holds s h) {id : String} {e : E} :
    s.store.entries.find? (Store.metaKey id) = some e ↔
      ∃ x ∈ h.kept, x.info.id = id ∧ EntryFormat.ofMetadata x.info = e := by
  rw [Table.find?_eq_some_iff, hh.entries_eq, List.mem_flatMap]
  refine exists_congr fun x => and_congr_right fun _ => ?_
  simp [Kept.entries, Store.metaKey_inj, Store.metaKey_ne_dataKey, @eq_comm _ id, @eq_comm _ e]

/-- Neither key of an identifier is found that no snapshot has. -/
theorem find?_eq_none (hh : Holds s h) {id : String} (hid : ∀ x ∈ h.kept, x.info.id ≠ id) :
    s.store.entries.find? (Store.dataKey id) = none ∧
      s.store.entries.find? (Store.metaKey id) = none := by
  simp only [Option.eq_none_iff_forall_ne_some]
  refine ⟨fun e he => ?_, fun e he => ?_⟩
  · rcases hh.find?_dataKey.1 he with ⟨x, hx, hxid, _⟩
    exact hid x hx hxid
  · rcases hh.find?_metaKey.1 he with ⟨x, hx, hxid, _⟩
    exact hid x hx hxid

/-! ## Answers -/

/-- A snapshot on the shelf passes every check of loading. Its hash is that of the data, because
    both were computed from the entry that is still there. -/
theorem load_kept (hh : Holds s h) (hformat : EntryFormat.Invertible E) {life : Lifetime}
    (hlife : life.poll.1 = none) {x : Kept} (hx : x ∈ h.kept) (serial : Nat) :
    ∃ g, x.seen.document.decode serial = .ok g ∧
      s.store.load life serial x.info.id = .ok (g, x.info) := by
  rcases Seen.exists_decode (hh.lawful x hx) (hh.named x hx) serial with ⟨g, hg⟩
  rcases hformat.document x.seen.document with ⟨content, hunpack, hdocument⟩
  -- The hash was computed from the document, and the entry was made from the same one.
  have hhash : x.info.contentHash =
      EntryFormat.hash (EntryFormat.ofDocument x.seen.document : E) := by
    rw [hh.info_eq x hx]
    rfl
  have hchecked : ¬ (x.info.contentHash ≠ "" ∧
      x.info.contentHash ≠ EntryFormat.hash (EntryFormat.ofDocument x.seen.document : E)) :=
    fun hc => hc.2 hhash
  refine ⟨g, hg, ?_⟩
  rw [Store.load, Store.whileWaiting_of_waiting hlife, hh.find?_dataKey.2 ⟨x, hx, rfl, rfl⟩,
    hh.find?_metaKey.2 ⟨x, hx, rfl, rfl⟩]
  simp only [hformat.metadata, if_neg hchecked, Store.unpack, hunpack, hdocument, hg]

theorem load_missing (hh : Holds s h) {life : Lifetime} (hlife : life.poll.1 = none) {id : String}
    (hid : ∀ x ∈ h.kept, x.info.id ≠ id) (serial : Nat) :
    s.store.load life serial id = .error (.notFound id) := by
  rw [Store.load, Store.whileWaiting_of_waiting hlife, (hh.find?_eq_none hid).1]

theorem delete_missing (hh : Holds s h) {life : Lifetime} (hlife : life.poll.1 = none)
    {id : String} (hid : ∀ x ∈ h.kept, x.info.id ≠ id) :
    s.store.delete life id = .error (.notFound id) :=
  Store.delete_of_none hlife (hh.find?_eq_none hid).2

theorem delete_kept (hh : Holds s h) {life : Lifetime} (hlife : life.poll.1 = none) {x : Kept}
    (hx : x ∈ h.kept) :
    s.store.delete life x.info.id =
      .ok ((s.store.remove (Store.dataKey x.info.id)).remove (Store.metaKey x.info.id)) :=
  Store.delete_of_some hlife (hh.find?_metaKey.2 ⟨x, hx, rfl, rfl⟩)

/-- Listing shows the shelf from its end. The store lists by key and sorts by time.
    Times decide the order alone, as no two snapshots have the same. -/
theorem list_eq (hh : Holds s h) (hformat : EntryFormat.Invertible E) {life : Lifetime}
    (hlife : life.poll.1 = none) : s.store.list life = .ok (h.kept.reverse.map (·.info)) := by
  let found := (Store.metaEntries s.store).filterMap fun e => EntryFormat.metadata? e.2
  let newest : Metadata → Metadata → Bool := fun a b => b.createdAtMilli ≤ a.createdAtMilli
  have hfound : found.Perm (h.kept.map (·.info)) := by
    have hentries : (Store.metaEntries s.store).Perm
        (h.kept.map fun x => (Store.metaKey x.info.id, EntryFormat.ofMetadata x.info)) := by
      rw [Store.metaEntries, hh.entries_eq, Kept.filter_isMetaKey]
      exact List.mergeSort_perm _ _
    refine (hentries.filterMap _).trans (List.Perm.of_eq ?_)
    rw [List.filterMap_map, ← List.filterMap_eq_map]
    exact List.filterMap_congr fun x _ => hformat.metadata x.info
  have hperm : (found.mergeSort newest).Perm (h.kept.reverse.map (·.info)) :=
    ((List.mergeSort_perm found newest).trans hfound).trans ((List.reverse_perm _).symm.map _)
  have hsorted : (found.mergeSort newest).Pairwise fun a b =>
      b.createdAtMilli ≤ a.createdAtMilli := by
    refine (List.pairwise_mergeSort ?_ ?_ found).imp fun hab => decide_eq_true_iff.1 hab
    · intro a b c hab hbc
      simp only [decide_eq_true_iff] at hab hbc ⊢
      omega
    · intro a b
      simp only [Bool.or_eq_true, decide_eq_true_iff]
      omega
  have hnewest : (h.kept.reverse.map (·.info)).Pairwise fun a b =>
      b.createdAtMilli < a.createdAtMilli := by
    rw [List.pairwise_map, List.pairwise_reverse]
    exact hh.times
  rw [Store.list, Store.whileWaiting_of_waiting hlife]
  refine congrArg Except.ok ?_
  refine List.Perm.eq_of_pairwise (fun a b ha hb hab hba => ?_) hsorted
    (hnewest.imp Int.le_of_lt) hperm
  -- Equal times can only be those of one snapshot.
  by_contra hne
  have : Std.Symm fun a b : Metadata => a.createdAtMilli ≠ b.createdAtMilli :=
    ⟨fun _ _ hxy => hxy.symm⟩
  have htimes : (h.kept.reverse.map (·.info)).Pairwise fun a b =>
      a.createdAtMilli ≠ b.createdAtMilli := hnewest.imp fun hlt => (Int.ne_of_lt hlt).symm
  have hdistinct := htimes.forall (hperm.mem_iff.1 ha) hb hne
  omega

/-! ## Steps -/

/-- Saving under a new identifier puts a pair of entries behind the others. -/
theorem entries_put (hh : Holds s h) {id : String} (hid : ∀ x ∈ h.kept, x.info.id ≠ id)
    (e e' : E) :
    ((s.store.put (Store.dataKey id) e).put (Store.metaKey id) e').entries.entries =
      s.store.entries.entries ++ [(Store.dataKey id, e), (Store.metaKey id, e')] := by
  have hmeta : (s.store.entries.insert (Store.dataKey id) e).find? (Store.metaKey id) = none := by
    rw [Table.find?_insert, if_neg (Store.dataKey_ne_metaKey id id)]
    exact (hh.find?_eq_none hid).2
  change ((s.store.entries.insert (Store.dataKey id) e).insert (Store.metaKey id) e').entries = _
  rw [Table.entries_insert hmeta, Table.entries_insert (hh.find?_eq_none hid).1,
    List.append_assoc]
  rfl

/-- A call that puts nothing on the shelf has only the entries to account for. What else
    holds of the snapshots holds of those that are left. -/
theorem after_of_saved_eq_none (hh : Holds s h) {c : Call} (hsaved : h.saved E c = none)
    (hentries : (s.after c).store.entries.entries =
      (h.kept.filter fun x => !c.drops x.info.id).flatMap Kept.entries) :
    Holds (s.after c) (h.after E c) := by
  have hkept : (h.after E c).kept = h.kept.filter fun x => !c.drops x.info.id := by
    rw [Shelf.after, hsaved]
    exact List.append_nil _
  have hmem : ∀ {x}, x ∈ (h.after E c).kept → x ∈ h.kept := by
    intro x hx
    rw [hkept] at hx
    exact List.mem_of_mem_filter hx
  exact {
    graphs_eq := congrArg c.edited hh.graphs_eq
    entries_eq := by rw [hkept]; exact hentries
    obtainable := Call.obtainable_edited hh.obtainable c
    ids := by rw [hkept]; exact hh.ids.filter _
    times := by rw [hkept]; exact hh.times.filter _
    lawful := fun x hx => hh.lawful x (hmem hx)
    named := fun x hx => hh.named x (hmem hx)
    info_eq := fun x hx => hh.info_eq x (hmem hx) }

/-- A call that takes nothing off the shelf leaves the entries alone. -/
theorem entries_of_no_drops (hh : Holds s h) {c : Call}
    (hdrops : ∀ x ∈ h.kept, c.drops x.info.id = false) :
    s.store.entries.entries = (h.kept.filter fun x => !c.drops x.info.id).flatMap Kept.entries := by
  rw [hh.entries_eq, List.filter_eq_self.2 fun x hx => by rw [hdrops x hx]; rfl]

/-- A snapshot that is put on the shelf has its pair of entries behind the others.
    Identifier and time are new, which is what the history was asked for. -/
theorem after_save (hh : Holds s h) {life : Lifetime} (hlife : life.poll.1 = none) {k : Nat}
    {filter : Option Filter} {id : String} {createdAtMilli : Int} {projectRoot label : String}
    (hallow : h.Allows E (.save life k filter id createdAtMilli projectRoot label)) :
    Holds (s.after (.save life k filter id createdAtMilli projectRoot label))
      (h.after E (.save life k filter id createdAtMilli projectRoot label)) := by
  let c := Call.save life k filter id createdAtMilli projectRoot label
  let seen := Seen.of h.graphs k filter
  let new : Kept := ⟨seen, Store.describe seen.document id createdAtMilli projectRoot label E⟩
  have hsaved : h.saved E c = some new := if_pos hlife
  have hkept : (h.after E c).kept = h.kept ++ [new] := by
    change (h.kept.filter fun _ => true) ++ (h.saved E c).toList = _
    rw [hsaved, List.filter_true]
    rfl
  rcases hallow new hsaved with ⟨hnamed, hnew⟩
  have hall : ∀ {P : Kept → Prop}, (∀ x ∈ h.kept, P x) → P new → ∀ x ∈ (h.after E c).kept, P x := by
    intro P hold hone x hx
    rw [hkept, List.mem_append, List.mem_singleton] at hx
    rcases hx with hx | rfl
    · exact hold x hx
    · exact hone
  -- The shelf ends in the new snapshot, so what holds of the others has one case more.
  have hpair : ∀ {R : Kept → Kept → Prop}, h.kept.Pairwise R → (∀ x ∈ h.kept, R x new) →
      (h.after E c).kept.Pairwise R := by
    intro R hold hone
    rw [hkept, List.pairwise_append]
    refine ⟨hold, List.pairwise_singleton _ _, fun x hx y hy => ?_⟩
    rw [List.mem_singleton.1 hy]
    exact hone x hx
  exact {
    graphs_eq := hh.graphs_eq
    entries_eq := by
      have hstore : (s.after c).store =
          (s.store.put (Store.dataKey id) (EntryFormat.ofDocument seen.document)).put
            (Store.metaKey id) (EntryFormat.ofMetadata new.info) := by
        simp only [c, Session.after, save_of_waiting hlife, hh.graphs_eq, seen, new]
      have hid : ∀ x ∈ h.kept, x.info.id ≠ id := fun x hx => (hnew x hx).1
      rw [hstore, hh.entries_put hid, hkept, List.flatMap_append, hh.entries_eq]
      rfl
    obtainable := hh.obtainable
    ids := hpair hh.ids fun x hx => (hnew x hx).1
    times := hpair hh.times fun x hx => (hnew x hx).2
    lawful := hall hh.lawful (Seen.lawful_of hh.obtainable k filter)
    named := hall hh.named hnamed
    info_eq := hall hh.info_eq rfl }

/-- One call keeps the store and the shelf in step. Saving and deleting are the two that
    change them, and each does so only for a caller that waits. -/
theorem after (hh : Holds s h) {c : Call} (hallow : h.Allows E c) :
    Holds (s.after c) (h.after E c) := by
  cases c with
  | edit => exact hh.after_of_saved_eq_none rfl (hh.entries_of_no_drops fun _ _ => rfl)
  | load => exact hh.after_of_saved_eq_none rfl (hh.entries_of_no_drops fun _ _ => rfl)
  | list => exact hh.after_of_saved_eq_none rfl (hh.entries_of_no_drops fun _ _ => rfl)
  | save life k filter id createdAtMilli projectRoot label =>
      cases hlife : life.poll.1 with
      | none => exact hh.after_save hlife hallow
      | some cause =>
          refine hh.after_of_saved_eq_none (if_neg (by simp [hlife])) ?_
          rw [Session.after, save_of_ended hlife]
          exact hh.entries_of_no_drops fun _ _ => rfl
  | delete life id =>
      refine hh.after_of_saved_eq_none rfl ?_
      cases hlife : life.poll.1 with
      | some cause =>
          rw [Session.after, Store.delete, Store.whileWaiting_of_ended hlife]
          exact hh.entries_of_no_drops fun _ _ => by simp [Call.drops, hlife]
      | none =>
          by_cases hid : ∃ x ∈ h.kept, x.info.id = id
          · -- Both entries go, and the pairs of the other snapshots stay whole.
            rcases hid with ⟨x, hx, rfl⟩
            rw [Session.after, hh.delete_kept hlife hx]
            change ((s.store.entries.entries.filter fun e => e.1 ≠ Store.dataKey x.info.id).filter
              fun e => e.1 ≠ Store.metaKey x.info.id) = _
            rw [hh.entries_eq, Kept.filter_entries]
            congr 1
            refine List.filter_congr fun y _ => ?_
            simp [Call.drops, hlife, eq_comm]
          · have hmissing : ∀ x ∈ h.kept, x.info.id ≠ id := fun x hx hxid => hid ⟨x, hx, hxid⟩
            rw [Session.after, hh.delete_missing hlife hmissing]
            refine hh.entries_of_no_drops fun x hx => ?_
            simp [Call.drops, (hmissing x hx).symm]

/-- Any history keeps the store and the shelf in step. -/
theorem afterAll (hh : Holds s h) {cs : List Call} (hcs : h.Admits E cs) :
    Holds (s.afterAll cs) (h.afterAll E cs) := by
  induction cs generalizing s h with
  | nil => exact hh
  | cons c rest ih => exact ih (hh.after hcs.1) hcs.2

end Holds

/-- Taking out a snapshot makes no difference to loading another. -/
theorem load_remove {store : Store E} {id other : String} (hne : other ≠ id) (life : Lifetime)
    (serial : Nat) :
    ((store.remove (Store.dataKey id)).remove (Store.metaKey id)).load life serial other =
      store.load life serial other := by
  have hdata : ((store.entries.erase (Store.dataKey id)).erase (Store.metaKey id)).find?
      (Store.dataKey other) = store.entries.find? (Store.dataKey other) := by
    rw [Table.find?_erase, if_neg (Store.dataKey_ne_metaKey other id).symm, Table.find?_erase,
      if_neg fun h => hne (Store.dataKey_inj.1 h).symm]
  have hmeta : ((store.entries.erase (Store.dataKey id)).erase (Store.metaKey id)).find?
      (Store.metaKey other) = store.entries.find? (Store.metaKey other) := by
    rw [Table.find?_erase, if_neg fun h => hne (Store.metaKey_inj.1 h).symm, Table.find?_erase,
      if_neg (Store.dataKey_ne_metaKey id other)]
  exact Store.load_congr hdata hmeta life serial

/-- After any history the store answers as the shelf does, on which stand the snapshots
    that were saved and not deleted since. The format of the entries may be any in which what is
    written can be read back: a compression and a text form that are inverse to their readers are
    all that the calls need, and the hash need not tell anything apart. -/
theorem answers_of_shelf (hformat : EntryFormat.Invertible E) (calls : List Call)
    (hcalls : Shelf.Admits E {} calls) :
    let s : Session E := afterAll {} calls
    let h : Shelf := Shelf.afterAll E {} calls
    -- On the shelf is what a call put there and no later call took off.
    (∀ x, x ∈ h.kept ↔ ∃ before c later, calls = before ++ c :: later ∧
      (Shelf.afterAll E {} before).saved E c = some x ∧
      ∀ c' ∈ later, c'.drops x.info.id = false) ∧
    -- For a caller that waits no longer nothing is done.
    (∀ life cause, life.poll.1 = some cause →
      (∀ k filter id createdAtMilli projectRoot label,
        s.save life k filter id createdAtMilli projectRoot label = .error (.ended cause) ∧
          s.after (.save life k filter id createdAtMilli projectRoot label) = s) ∧
      (∀ serial id, s.store.load life serial id = .error (.ended cause)) ∧
      s.store.list life = .error (.ended cause) ∧
      ∀ id, s.store.delete life id = .error (.ended cause) ∧ s.after (.delete life id) = s) ∧
    (∀ life, life.poll.1 = none →
      -- Saving answers with the metadata of what it puts on the shelf.
      (∀ k filter id createdAtMilli projectRoot label, ∃ store x,
        h.saved E (.save life k filter id createdAtMilli projectRoot label) = some x ∧
        s.save life k filter id createdAtMilli projectRoot label = .ok (store, x.info) ∧
        x.seen = Seen.of s.graphs k filter ∧ x.info.id = id ∧ x.info.label = label ∧
        x.info.projectRoot = projectRoot ∧ x.info.createdAtMilli = createdAtMilli) ∧
      -- Loading and deleting find what is on the shelf, and nothing else.
      (∀ x ∈ h.kept,
        (∀ serial, ∃ g, x.seen.document.decode serial = .ok g ∧
          s.store.load life serial x.info.id = .ok (g, x.info)) ∧
        ∃ store, s.store.delete life x.info.id = .ok store ∧
          ∀ other, other ≠ x.info.id → ∀ life' serial,
            store.load life' serial other = s.store.load life' serial other) ∧
      (∀ id, (∀ x ∈ h.kept, x.info.id ≠ id) →
        (∀ serial, s.store.load life serial id = .error (.notFound id)) ∧
        s.store.delete life id = .error (.notFound id) ∧ s.after (.delete life id) = s) ∧
      -- Listing shows the shelf from its end.
      s.store.list life = .ok (h.kept.reverse.map (·.info))) ∧
    ∀ x ∈ h.kept, x.info.nodeCount = x.seen.ask CallGraph.nodeCount ∧
      x.info.edgeCount = x.seen.ask CallGraph.countEdges := by
  intro s h
  have hh : Holds s h := holds_start.afterAll hcalls
  refine ⟨fun x => ?_, fun life cause hlife => ⟨?_, ?_, ?_, ?_⟩,
    fun life hlife => ⟨?_, ?_, ?_, hh.list_eq hformat hlife⟩, ?_⟩
  · rw [Shelf.mem_afterAll]
    exact or_iff_right fun hx => absurd hx.1 (by simp)
  · intro k filter id createdAtMilli projectRoot label
    have hsave := save_of_ended hlife s k filter id createdAtMilli projectRoot label
    refine ⟨hsave, ?_⟩
    rw [Session.after, hsave]
    rfl
  · exact fun serial id => Store.whileWaiting_of_ended hlife _
  · exact Store.whileWaiting_of_ended hlife _
  · intro id
    have hdelete : s.store.delete life id = .error (.ended cause) :=
      Store.whileWaiting_of_ended hlife _
    refine ⟨hdelete, ?_⟩
    rw [Session.after, hdelete]
    rfl
  · intro k filter id createdAtMilli projectRoot label
    have hsave := save_of_waiting hlife s k filter id createdAtMilli projectRoot label
    have hsaved : h.saved E (.save life k filter id createdAtMilli projectRoot label) =
        some ⟨Seen.of h.graphs k filter, _⟩ := if_pos hlife
    rw [← hh.graphs_eq] at hsaved
    exact ⟨_, _, hsaved, hsave, rfl, rfl, rfl, rfl, rfl⟩
  · intro x hx
    refine ⟨hh.load_kept hformat hlife hx, _, hh.delete_kept hlife hx, ?_⟩
    exact fun other hne life' serial => load_remove hne life' serial
  · intro id hid
    have hdelete := hh.delete_missing hlife hid
    refine ⟨hh.load_missing hlife hid, hdelete, ?_⟩
    rw [Session.after, hdelete]
    rfl
  · intro x hx
    rw [hh.info_eq x hx, ← Seen.length_nodes (hh.lawful x hx), ← Seen.length_edges (hh.lawful x hx)]
    exact ⟨rfl, rfl⟩

/-- A graph with one node beside its roots is saved whole and then through a filter that
    hides one of them. The node is removed, a caller that waits no longer tries to
    delete the second snapshot, and the first one is deleted. -/
def errands : List Call :=
  let unit : CodeUnit := .named ⟨"", "A", "()"⟩
  let a : Node := ⟨0, 2, unit, .everywhere, .ordinary⟩
  [.edit 0 (.findOrCreate (some unit) (some .everywhere)),
    .edit 0 (.addCall (some a) ⟨0, ⟨"", "A", "()"⟩, .static⟩ (some a)),
    .save {} 0 none "first" 1 "/p" "",
    .save {} 0 (some ⟨IdSet.ofList [0, 2], .empty⟩) "second" 2 "/p" "",
    .edit 0 (.removeNode (some a)), .delete { polls := some 0 } "second", .delete {} "first"]

/-- The second snapshot has the node that the graph has lost. -/
theorem answers_of_shelf_errands :
    let s : Session := afterAll {} errands
    Shelf.Admits Entry {} errands ∧ (s.graphs 0).nodes.length = 2 ∧
      s.store.load {} 9 "first" = .error (.notFound "first") ∧
      s.store.delete { polls := some 0 } "second" = .error (.ended .canceled) ∧
      ∃ g m, s.store.load {} 9 "second" = .ok (g, m) ∧ s.store.list {} = .ok [m] ∧
        m.nodeCount = 2 ∧ m.edgeCount = 1 := by
  intro s
  have hadmits : Shelf.Admits Entry {} errands := by decide
  rcases answers_of_shelf Entry.invertible errands hadmits with ⟨_, hended, hwaiting, hcounts⟩
  rcases hwaiting {} rfl with ⟨_, hkept, hmissing, hlist⟩
  -- The shelf is computed, and what the store answers follows from the theorem.
  have hshelf : ∃ x, (Shelf.afterAll Entry {} errands).kept = [x] ∧ x.info.id = "second" ∧
      x.seen.ask CallGraph.nodeCount = 2 ∧ x.seen.ask CallGraph.countEdges = 1 :=
    ⟨_, rfl, rfl, by decide, by decide⟩
  rcases hshelf with ⟨x, hx, hid, hnodes, hedges⟩
  rw [hx] at hkept hmissing hlist hcounts
  rcases (hkept x (by simp)).1 9 with ⟨g, _, hload⟩
  rw [hid] at hload
  refine ⟨hadmits, by decide, (hmissing "first" (by simp [hid])).1 9,
    ((hended { polls := some 0 } .canceled rfl).2.2.2 "second").1, g, x.info, hload, hlist, ?_⟩
  rw [(hcounts x (by simp)).1, (hcounts x (by simp)).2, hnodes, hedges]
  exact ⟨rfl, rfl⟩

end Session

end CallAtlas
