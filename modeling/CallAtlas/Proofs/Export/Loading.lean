import CallAtlas.Export.Load
import CallAtlas.Proofs.Export.Rows

/-!
# Loading Is Complete, Ordered and Safe

Loading goes through four stages, three of which cut their rows into batches, and it ends
with the first statement that is refused. Together the stages go through one sequence of
statements, which does not depend on the connection: the connection only decides how far
they get.

A run over a connection says how it ended, but not what was sent, since a connection may
forget. So the connection is wrapped into one that notes every statement before it passes it
on. `send_noting` says that this changes nothing else, and what is noted is then compared
with the sequence.

Rows of calls refer to rows of nodes by number. They are sent after all of them, and every
edge of a lawful graph joins nodes that have a row, of which there is one for each number.

## Main definitions

* `Export.Batched`: Statements that send rows in batches.
* `Export.noting`: A connection that notes what is sent over it.
* `Export.Answered`: A connection answers some statements.

## Theorems

* `Export.flatten_batches`, `Export.length_of_mem_batches`: Batches neither lose nor repeat
  a row, and none is empty or too large.
* `Export.load_eq_send`: The stages send one sequence of statements.
* `Export.send_of_answered`, `Export.send_of_refused`: What is sent, and how it ends.
* `Export.load_in_order`: Loading sends the rows in order, and each row of a call after those
  of its ends, up to the first statement that is refused.
-/

namespace CallAtlas

namespace Export

/-! ## Batches -/

section Batches

variable {α : Type}

/-- As many batches as fill up with the rows have all of them. The induction is on how
    many batches there may be, which is also what makes cutting them off end. -/
theorem flatten_batchesUpTo (n : Nat) (rows : List α) (h : rows.length ≤ n * batchSize) :
    (batchesUpTo n rows).flatten = rows := by
  induction n generalizing rows with
  | zero =>
      rw [Nat.zero_mul, Nat.le_zero, List.length_eq_zero_iff] at h
      rw [h]
      rfl
  | succ n ih =>
      rw [batchesUpTo]
      split
      · next hempty => rw [List.isEmpty_iff.1 hempty, List.flatten_nil]
      · -- One batch is filled, so the remaining ones suffice for the rest.
        have hdrop : (rows.drop batchSize).length ≤ n * batchSize := by
          rw [List.length_drop]
          rw [Nat.succ_mul] at h
          omega
        rw [List.flatten_cons, ih _ hdrop, List.take_append_drop]

/-- Batches neither lose nor repeat a row. The division rounds down, and one more batch
    makes up for what it leaves. -/
theorem flatten_batches (rows : List α) : (batches rows).flatten = rows := by
  refine flatten_batchesUpTo _ rows ?_
  have := Nat.lt_mul_div_succ rows.length (by decide : 0 < batchSize)
  rw [Nat.mul_comm]
  omega

/-- A batch is cut off from rows that are there, so it has at least one of them. -/
theorem length_of_mem_batchesUpTo {n : Nat} {rows b : List α} (hb : b ∈ batchesUpTo n rows) :
    1 ≤ b.length ∧ b.length ≤ batchSize := by
  induction n generalizing rows with
  | zero => simp [batchesUpTo] at hb
  | succ n ih =>
      rw [batchesUpTo] at hb
      split at hb
      · simp at hb
      · next hsome =>
        rcases List.mem_cons.1 hb with rfl | hb
        · -- The rows are not empty here, so the batch that is cut off them is not either.
          have hpos : 0 < rows.length := List.length_pos_iff.2 fun h => hsome (by rw [h]; rfl)
          have hsize : 0 < batchSize := by decide
          rw [List.length_take]
          omega
        · exact ih hb

/-- No batch is empty or too large. -/
theorem length_of_mem_batches {rows b : List α} (hb : b ∈ batches rows) :
    1 ≤ b.length ∧ b.length ≤ batchSize := length_of_mem_batchesUpTo hb

/-- The statements send rows in batches: each is bound to at least one row and to no
    more than a batch holds, and together they have every row once and in order. -/
def Batched (cypher : String) (wrap : List α → Rows) (rows : List α) (l : List Statement) : Prop :=
  ∃ bs : List (List α), l = bs.map (fun b => { cypher := cypher, rows := some (wrap b) }) ∧
    bs.flatten = rows ∧ ∀ b ∈ bs, 1 ≤ b.length ∧ b.length ≤ 5000

theorem batched_batches (cypher : String) (wrap : List α → Rows) (rows : List α) :
    Batched cypher wrap rows
      ((batches rows).map fun b => { cypher := cypher, rows := some (wrap b) }) :=
  ⟨batches rows, rfl, flatten_batches rows, fun _ hb => length_of_mem_batches hb⟩

end Batches

/-! ## Sending -/

section Sending

variable {σ ε : Type}

/-- A connection that notes what is sent over it. -/
def noting (execute : Statement → ExceptT ε (StateM σ) Unit) (q : Statement) :
    ExceptT ε (StateM (List Statement × σ)) Unit := fun s =>
  ((execute q s.2).1, s.1 ++ [q], (execute q s.2).2)

/-- A connection answers statements one after the other. -/
inductive Answered (execute : Statement → ExceptT ε (StateM σ) Unit) :
    List Statement → σ → σ → Prop
  | nil {s : σ} : Answered execute [] s s
  | cons {q : Statement} {rest : List Statement} {s t u : σ} : execute q s = (.ok (), t) →
      Answered execute rest t u → Answered execute (q :: rest) s u

variable {execute : Statement → ExceptT ε (StateM σ) Unit}

/-- An answer lets the rest be sent. Together with the next lemma this is all that is
    used of the monad in which statements are sent. -/
theorem send_cons_of_ok {q : Statement} {rest : List Statement} {s t : σ}
    (h : execute q s = (.ok (), t)) : send execute (q :: rest) s = send execute rest t := by
  change (execute q >>= fun _ => send execute rest) s = _
  simp only [bind, ExceptT.bind, ExceptT.mk, StateT.bind, h, ExceptT.bindCont]

theorem send_cons_of_error {q : Statement} {rest : List Statement} {s t : σ} {e : ε}
    (h : execute q s = (.error e, t)) : send execute (q :: rest) s = (.error e, t) := by
  change (execute q >>= fun _ => send execute rest) s = _
  simp only [bind, ExceptT.bind, ExceptT.mk, StateT.bind, h, ExceptT.bindCont]
  rfl

/-- What is answered is sent to the end. The notes go on from what was noted before,
    which the induction needs for the statements after the first. -/
theorem send_of_answered {plan : List Statement} {s t : σ} (h : Answered execute plan s t)
    (sent : List Statement) : send (noting execute) plan (sent, s) = (.ok (), sent ++ plan, t) := by
  induction h generalizing sent with
  | nil => rw [List.append_nil]; rfl
  | @cons q rest s t u hq _ ih =>
      have hnote : noting execute q (sent, s) = (.ok (), sent ++ [q], t) := by
        rw [noting, hq]
      rw [send_cons_of_ok hnote, ih, List.append_assoc]
      rfl

/-- A refusal ends what is sent, and is the result. -/
theorem send_of_refused {pre post : List Statement} {q : Statement} {s t u : σ} {e : ε}
    (h : Answered execute pre s t) (hq : execute q t = (.error e, u)) (sent : List Statement) :
    send (noting execute) (pre ++ q :: post) (sent, s) = (.error e, sent ++ (pre ++ [q]), u) := by
  induction h generalizing sent with
  | nil =>
      refine send_cons_of_error ?_
      rw [noting, hq]
      rfl
  | @cons p rest s t u hp _ ih =>
      have hnote : noting execute p (sent, s) = (.ok (), sent ++ [p], t) := by
        rw [noting, hp]
      rw [List.cons_append, send_cons_of_ok hnote, ih hq, List.append_assoc]
      rfl

/-- Either all statements are answered, or there is a first one that is refused. -/
theorem answered_or_refused (execute : Statement → ExceptT ε (StateM σ) Unit)
    (plan : List Statement) (s : σ) :
    (∃ t, Answered execute plan s t) ∨ ∃ pre q post t e u, plan = pre ++ q :: post ∧
      Answered execute pre s t ∧ execute q t = (.error e, u) := by
  induction plan generalizing s with
  | nil => exact Or.inl ⟨s, .nil⟩
  | cons q rest ih =>
      -- A refusal here is the first one. After an answer the rest decides.
      rcases hq : execute q s with ⟨_ | ⟨⟩, t⟩
      · exact Or.inr ⟨[], q, rest, s, _, t, rfl, .nil, hq⟩
      · rcases ih t with ⟨u, hu⟩ | ⟨pre, p, post, u, e, w, rfl, hpre, hp⟩
        · exact Or.inl ⟨u, .cons hq hu⟩
        · exact Or.inr ⟨q :: pre, p, post, u, e, w, rfl, .cons hq hpre, hp⟩

/-- Noting what is sent does not change how it ends, so what is said of a connection
    that notes is true of the one it was made from. -/
theorem send_noting (plan sent : List Statement) (s : σ) :
    send execute plan s = ((send (noting execute) plan (sent, s)).1,
      (send (noting execute) plan (sent, s)).2.2) := by
  induction plan generalizing sent s with
  | nil => rfl
  | cons q rest ih =>
      rcases hq : execute q s with ⟨e | ⟨⟩, t⟩
      · have hnote : noting execute q (sent, s) = (.error e, sent ++ [q], t) := by
          rw [noting, hq]
        rw [send_cons_of_error hq, send_cons_of_error hnote]
      · have hnote : noting execute q (sent, s) = (.ok (), sent ++ [q], t) := by
          rw [noting, hq]
        rw [send_cons_of_ok hq, send_cons_of_ok hnote]
        exact ih (sent ++ [q]) t

/-- The stages send one sequence of statements. Nothing happens between them, so a
    refusal in one stage keeps the later ones from being sent as it keeps the rest of
    the stage. -/
theorem load_eq_send (execute : Statement → ExceptT ε (StateM σ) Unit) (pkgs : List PackageRow)
    (m : Model) :
    load execute pkgs m =
      send execute (indexes ++ packages pkgs ++ nodes m.funcs ++ calls m.calls) := by
  simp only [load, send, List.forM_eq_forM, List.forM_append, bind_assoc]

end Sending

/-! ## Rows of calls come after those of their ends -/

/-- The rows of nodes that a statement is bound to. -/
def funcRows (q : Statement) : List FuncRow :=
  match q.rows with
  | some (.funcs rows) => rows
  | _ => []

theorem rows_of_mem_indexes : ∀ q ∈ indexes, q.rows = none := by decide

section Stages

variable {α : Type} {cypher : String} {wrap : List α → Rows} {rows : List α} {l : List Statement}

/-- The rows of a statement that sends a batch. -/
theorem Batched.rows_of_mem (h : Batched cypher wrap rows l) {q : Statement} (hq : q ∈ l) :
    ∃ b, q.rows = some (wrap b) ∧ ∀ a ∈ b, a ∈ rows := by
  rcases h with ⟨bs, rfl, rfl, _⟩
  rcases List.mem_map.1 hq with ⟨b, hb, rfl⟩
  exact ⟨b, rfl, fun a ha => List.mem_flatten.2 ⟨b, hb, ha⟩⟩

/-- Batches of other rows do not have a statement. -/
theorem Batched.not_mem (h : Batched cypher wrap rows l) {q : Statement} {r : Rows}
    (hq : q.rows = some r) (hr : ∀ b, wrap b ≠ r) : q ∉ l := by
  intro hmem
  rcases h.rows_of_mem hmem with ⟨b, hb, _⟩
  rw [hq, Option.some.injEq] at hb
  exact hr b hb.symm

/-- Statements without rows of nodes send none. -/
theorem flatMap_funcRows_eq_nil (h : ∀ q ∈ l, ∀ fs, q.rows ≠ some (.funcs fs)) :
    l.flatMap funcRows = [] := by
  rw [List.flatMap_eq_nil_iff]
  intro q hq
  unfold funcRows
  split
  · next fs hfs => exact absurd hfs (h q hq fs)
  · rfl

/-- Batches of other rows have no rows of nodes. -/
theorem Batched.flatMap_funcRows_of_ne (h : Batched cypher wrap rows l)
    (hwrap : ∀ b fs, wrap b ≠ .funcs fs) {part : List Statement} (hpart : part ⊆ l) :
    part.flatMap funcRows = [] :=
  flatMap_funcRows_eq_nil fun _ hq fs hfs => h.not_mem hfs (fun b => hwrap b fs) (hpart hq)

theorem Batched.flatMap_funcRows {fs : List FuncRow} (h : Batched cypher .funcs fs l) :
    l.flatMap funcRows = fs := by
  rcases h with ⟨bs, rfl, rfl, _⟩
  rw [List.flatMap_map]
  exact List.flatMap_id'

/-- A statement that is not in the first of two parts comes after it. So it is enough to
    know which stage a statement belongs to in order to know what was sent before it. -/
theorem exists_append_of_not_mem {first second pre post : List Statement} {q : Statement}
    (h : first ++ second = pre ++ q :: post) (hq : q ∉ first) :
    ∃ mid, pre = first ++ mid ∧ second = mid ++ q :: post := by
  rcases List.append_eq_append_iff.1 h with ⟨mid, hpre, hmid⟩ | ⟨mid, hfirst, hmid⟩
  · exact ⟨mid, hpre, hmid⟩
  · -- The first part reaches up to the statement at least, and does not have it.
    cases mid with
    | nil => exact ⟨[], by simpa using hfirst.symm, by simpa using hmid.symm⟩
    | cons p mid =>
        obtain ⟨rfl, _⟩ := List.cons.inj hmid
        exact absurd (hfirst ▸ List.mem_append_right pre List.mem_cons_self) hq

end Stages

/-- All rows of nodes have been sent before a statement with rows of calls. Such a
    statement belongs to the last stage, and before it there are all the stages but this
    one. -/
theorem flatMap_funcRows_before_calls {pkgs : List PackageRow} {m : Model}
    {ps ns cs pre post : List Statement} {q : Statement} {rows : List CallRow}
    (hps : Batched packageQuery .packages pkgs ps) (hns : Batched nodeQuery .funcs m.funcs ns)
    (hcs : Batched callQuery .calls m.calls cs)
    (hplan : indexes ++ ps ++ ns ++ cs = pre ++ q :: post) (hq : q.rows = some (.calls rows)) :
    pre.flatMap funcRows = m.funcs ∧ ∀ c ∈ rows, c ∈ m.calls := by
  have hearlier : q ∉ indexes ++ ps ++ ns := by
    rw [List.mem_append, List.mem_append]
    rintro ((hmem | hmem) | hmem)
    · rw [rows_of_mem_indexes q hmem] at hq
      exact absurd hq (by simp)
    · exact hps.not_mem hq (by simp) hmem
    · exact hns.not_mem hq (by simp) hmem
  rcases exists_append_of_not_mem hplan hearlier with ⟨mid, rfl, rfl⟩
  constructor
  · -- Of the stages that are over and of the begun one, only that of the nodes has such rows.
    have hindexes : indexes.flatMap funcRows = [] :=
      flatMap_funcRows_eq_nil fun p hp fs => by simp [rows_of_mem_indexes p hp]
    have hpackages := hps.flatMap_funcRows_of_ne (by simp) (List.Subset.refl ps)
    have hmid := hcs.flatMap_funcRows_of_ne (by simp) (List.subset_append_left mid (q :: post))
    rw [List.flatMap_append, List.flatMap_append, List.flatMap_append, hindexes, hpackages,
      hns.flatMap_funcRows, hmid, List.nil_append, List.nil_append, List.append_nil]
  · rcases hcs.rows_of_mem (List.mem_append_right mid List.mem_cons_self) with ⟨b, hb, hmem⟩
    rw [hq, Option.some.injEq, Rows.calls.injEq] at hb
    rw [hb]
    exact hmem

/-- Loading goes through one sequence of statements: the indexes, then the packages, nodes and
    calls in batches that have every row once and in order. When a row of a call is sent, each
    of its ends has been sent in one row. Whatever a connection does, what is sent over it is a
    first part of the sequence: all of it, or up to the first statement that is refused, whose
    reason is the result. -/
theorem load_in_order (serial : Nat) (edits : List Graph.Edit) (filter : Filter) (d : Describer)
    (pkgs : List PackageRow) :
    let g := (Graph.fresh serial).afterAll edits
    let m := Model.build g (⟨g, filter⟩ : View) d
    ∃ ps ns cs : List Statement,
      Batched packageQuery .packages pkgs ps ∧ Batched nodeQuery .funcs m.funcs ns ∧
      Batched callQuery .calls m.calls cs ∧
      let plan := indexes ++ ps ++ ns ++ cs
      (∀ pre q post rows, plan = pre ++ q :: post → q.rows = some (.calls rows) → ∀ c ∈ rows,
        (pre.flatMap funcRows).countP (·.id = c.caller) = 1 ∧
        (pre.flatMap funcRows).countP (·.id = c.callee) = 1) ∧
      ∀ {σ ε : Type} (execute : Statement → ExceptT ε (StateM σ) Unit) (s : σ),
        let run : Except ε Unit × List Statement × σ := load (noting execute) pkgs m ([], s)
        -- Noting what is sent changes nothing else.
        load execute pkgs m s = (run.1, run.2.2) ∧
        run.2.1 <+: plan ∧
        (∀ t, Answered execute plan s t → run = (.ok (), plan, t)) ∧
        (∀ pre q post t e u, plan = pre ++ q :: post → Answered execute pre s t →
          execute q t = (.error e, u) → run = (.error e, pre ++ [q], u)) ∧
        -- There is no third way to end.
        ((∃ t, Answered execute plan s t) ∨ ∃ pre q post t e u, plan = pre ++ q :: post ∧
          Answered execute pre s t ∧ execute q t = (.error e, u)) := by
  intro g m
  have hg : CallGraph.Lawful g := ((Graph.wellFormed_fresh serial).afterAll edits).lawful
  have hps := batched_batches packageQuery .packages pkgs
  have hns := batched_batches nodeQuery .funcs m.funcs
  have hcs := batched_batches callQuery .calls m.calls
  refine ⟨packages pkgs, nodes m.funcs, calls m.calls, hps, hns, hcs, ?_⟩
  intro plan
  refine ⟨?_, ?_⟩
  · intro pre q post rows hplan hq c hc
    rcases flatMap_funcRows_before_calls hps hns hcs hplan hq with ⟨hfuncs, hcalls⟩
    rw [hfuncs]
    exact Model.countP_id_ends hg (hcalls c hc)
  · intro σ ε execute s run
    have hrun : run = send (noting execute) plan ([], s) :=
      congrFun (load_eq_send (noting execute) pkgs m) ([], s)
    have hanswered : ∀ t, Answered execute plan s t → run = (.ok (), plan, t) :=
      fun t ht => hrun.trans (send_of_answered ht [])
    have hrefused : ∀ pre q post t e u, plan = pre ++ q :: post → Answered execute pre s t →
        execute q t = (.error e, u) → run = (.error e, pre ++ [q], u) := by
      intro pre q post t e u hplan ht hq
      rw [hrun, hplan]
      exact send_of_refused ht hq []
    have hends := answered_or_refused execute plan s
    refine ⟨?_, ?_, hanswered, hrefused, hends⟩
    · rw [hrun, load_eq_send]
      exact send_noting plan [] s
    · rcases hends with ⟨t, ht⟩ | ⟨pre, q, post, t, e, u, hplan, ht, hq⟩
      · rw [hanswered t ht]
      · rw [hrefused pre q post t e u hplan ht hq, hplan]
        exact ⟨post, by simp⟩

/-- The first batch of nodes is refused: the packages are there, and no call is sent. -/
example :
    let m : Model := { funcs := [{ id := 0 }, { id := 1 }], calls := [{ callee := 1 }] }
    load Server.execute [⟨"p", "p", ""⟩] m { failsAfter := some 4 } =
      (.error ⟨"Neo4jError"⟩, { answered := indexes ++ packages [⟨"p", "p", ""⟩] }) := by
  rfl

end Export

end CallAtlas
