import CallAtlas.Proofs.Closure.Initializers

/-!
# Questions and Caches

A hierarchy may be slow to answer, so the closure is meant not to ask twice. It keeps what
it was told about candidates and function objects in two caches, and it asks about the code
and the initializer of a node when it reads or makes the node. This module says what the
reading of one node adds to the questions.

A question is put when a key is not in the cache, and then the key is written behind those
that are there, whatever the answer was. So the keys of a cache are the keys of the visited
sites without repetitions, and there is one question for each. A cache that was not written
for an empty answer would break this.

Questions about initializers leave no trace in a cache. They are counted against the graph:
the nodes that the fake world-clinit node does not call are those that were made for calls,
and each of them came with one question.

Nothing is assumed of what the hierarchy answers.

## Main definitions

* `Question.topic`, `Closure.questions`: Questions by what they are about.
* `Graph.callees`: The nodes that were made for calls.
* `Closure.Accounts`: The questions about initializers, and how many nodes were made.
* `Closure.Ledger`: The questions about code, candidates and function objects.
* `Closure.Tally`: The order of a closure together with all that was asked.

## Theorems

* `Closure.resolve_cases`, `Closure.resolveWrapper_cases`: A question is put if the cache
  does not answer.
* `Closure.Accounts.nodeFor`: A question about an initializer is put if a node is made.
* `Closure.Tally.visitSite`, `Closure.Tally.step`: What a site and a node add.
-/

namespace CallAtlas

/-! ## Questions -/

/-- What a question is about. -/
inductive Topic where
  | code
  | candidates
  | functionObject
  | initializer
deriving DecidableEq

namespace Question

/-- What a question is about. -/
def topic : Question → Topic
  | single _ => .candidates
  | overrides _ => .candidates
  | initializer _ => .initializer
  | callSites _ => .code
  | wrapper _ _ => .functionObject

/-- The question about the candidates for a target and a dispatch kind. -/
def about (key : MethodRef × Dispatch) : Question :=
  if key.2.isOverriding then .overrides key.1 else .single key.1

/-- Both questions about candidates are on the same topic, so they are counted together. -/
theorem topic_about (key : MethodRef × Dispatch) : (about key).topic = .candidates := by
  unfold about
  split
  · rfl
  · rfl

end Question

/-! ## The nodes that were made for calls -/

namespace Graph

variable {g g' : Graph} {n : Node}

/-- The ordinary nodes that the fake world-clinit node does not call. -/
def callees (g : Graph) : List Node :=
  g.nodes.filter fun n => n.kind = .ordinary &&
    !g.hasEdge ⟨g.serial, clinitId, .fakeWorldClinit, .everywhere, .fakeWorldClinit⟩ n

/-- A node was made for a call if it is ordinary and the fake world-clinit node does not
    call it: what is made as an initializer is called from there at once. -/
theorem WellFormed.mem_callees (hg : WellFormed g) :
    n ∈ g.callees ↔ g.contains n ∧ n.kind = .ordinary ∧ ¬g.Calls clinitId n.id := by
  have hclinit : g.contains ⟨g.serial, clinitId, .fakeWorldClinit, .everywhere, .fakeWorldClinit⟩ :=
    contains_iff.2 hg.clinit
  rw [callees, List.mem_filter, ← hg.contains_iff_mem_nodes, Bool.and_eq_true, decide_eq_true_iff,
    Bool.not_eq_true', ← Bool.not_eq_true, hasEdge_iff]
  constructor
  · rintro ⟨hn, hord, hnot⟩
    exact ⟨hn, hord, fun hcalls => hnot ⟨hclinit, hn, hcalls⟩⟩
  · rintro ⟨hn, hord, hnot⟩
    exact ⟨hn, hord, fun hedge => hnot hedge.2.2⟩

theorem WellFormed.callees_ascending (hg : WellFormed g) :
    g.callees.Pairwise fun a b => a.id < b.id :=
  hg.nodes_ascending.filter _

/-- A change that adds no node and no call of the fake world-clinit node leaves the
    nodes that were made for calls. -/
theorem callees_congr (hg : WellFormed g) (hg' : WellFormed g')
    (hsame : ∀ {k}, g'.contains k ↔ g.contains k)
    (hcalls : ∀ {d}, g'.Calls clinitId d ↔ g.Calls clinitId d) : g'.callees = g.callees := by
  refine eq_of_ascending hg'.callees_ascending hg.callees_ascending fun k => ?_
  rw [hg'.mem_callees, hg.mem_callees, hsame, hcalls]

/-- A new node is made for a call as long as the fake world-clinit node does not call
    it. It stands behind the others because its number is the largest. -/
theorem callees_create (hg : WellFormed g) {u : CodeUnit}
    (hg' : WellFormed (g.create u .everywhere .ordinary).1) :
    (g.create u .everywhere .ordinary).1.callees =
      g.callees ++ [(g.create u .everywhere .ordinary).2] := by
  refine eq_of_ascending hg'.callees_ascending ?_ fun k => ?_
  · refine List.pairwise_append.2 ⟨hg.callees_ascending, List.pairwise_singleton _ _, ?_⟩
    intro a ha b hb
    rw [List.mem_singleton.1 hb]
    exact (id_bounds (hg.mem_callees.1 ha).1).2
  · rw [hg'.mem_callees, contains_create, calls_create, List.mem_append, List.mem_singleton,
      hg.mem_callees]
    constructor
    · rintro ⟨hk | rfl, hord, hnot⟩
      · exact Or.inl ⟨hk, hord, hnot⟩
      · exact Or.inr rfl
    · rintro (⟨hk, hord, hnot⟩ | rfl)
      · exact ⟨Or.inl hk, hord, hnot⟩
      · -- Nothing calls a number that has no node yet.
        exact ⟨Or.inr rfl, rfl, fun hcalls => not_live_size g (hg.live_right hcalls)⟩

/-- A new node that the fake world-clinit node calls is not made for a call, although it
    was for the moment between its making and the call. -/
theorem callees_linked (hg : WellFormed g) {u : CodeUnit} {clinit : Node} {site : CallSite}
    (hg' : WellFormed ((g.create u .everywhere .ordinary).1.called clinit site
      (g.create u .everywhere .ordinary).2))
    (hclinit : (g.create u .everywhere .ordinary).1.contains clinit) (hid : clinit.id = clinitId) :
    ((g.create u .everywhere .ordinary).1.called clinit site
      (g.create u .everywhere .ordinary).2).callees = g.callees := by
  -- Both lists ascend, so it is enough to compare their members.
  refine eq_of_ascending hg'.callees_ascending hg.callees_ascending fun k => ?_
  rw [hg'.mem_callees, hg.mem_callees, contains_called, contains_create, calls_called hclinit,
    calls_create, hid]
  constructor
  · rintro ⟨hk | rfl, hord, hnot⟩
    · exact ⟨hk, hord, fun hcalls => hnot (Or.inl hcalls)⟩
    · exact absurd (Or.inr ⟨rfl, rfl⟩) hnot
  · rintro ⟨hk, hord, hnot⟩
    refine ⟨Or.inl hk, hord, fun hcalls => ?_⟩
    -- The new edge leads to the new node, which is not among the old ones.
    rcases hcalls with hcalls | ⟨_, hnew⟩
    · exact hnot hcalls
    · exact absurd hnew (id_bounds hk).2.ne

end Graph

namespace Closure

open CallAtlas.Graph (clinitId)

variable {σ : Type} {h : Hierarchy σ} {only : Bool} {n : Node} {c c' : Closure σ}
  {read : List Node} {visited : List (Node × CallSite)}

/-- The questions about a topic, in order. -/
def questions (c : Closure σ) (t : Topic) : List Question :=
  c.asked.filter fun q => q.topic = t

theorem questions_concat {q : Question} {t : Topic} (hasked : c'.asked = c.asked ++ [q])
    (ht : q.topic = t) : c'.questions t = c.questions t ++ [q] := by
  simp [questions, hasked, ht]

theorem questions_of_ne {q : Question} {t : Topic} (hasked : c'.asked = c.asked ++ [q])
    (ht : q.topic ≠ t) : c'.questions t = c.questions t := by
  simp [questions, hasked, ht]

/-! ## Initializers -/

/-- There is one question about an initializer for each node that was made for a call.
    The nodes that were made are these and the initializers that were linked. -/
structure Accounts (c : Closure σ) : Prop where
  asked : c.questions .initializer = c.graph.callees.map fun n => .initializer n.unit
  split : c.created = c.graph.callees.length + c.initializers
  created : (c.created : Int) + 2 = c.graph.live

/-- The caches are as they were, and whatever was asked was about initializers. -/
structure Apart (c c' : Closure σ) : Prop where
  candidates : c'.candidates = c.candidates
  wrappers : c'.wrappers = c.wrappers
  asked : ∀ {t}, t ≠ .initializer → c'.questions t = c.questions t

theorem Apart.refl (c : Closure σ) : Apart c c := ⟨rfl, rfl, fun _ => rfl⟩

/-- Linking an initializer puts no question: an initializer is not asked for its own. -/
theorem apart_linkInitializer (c : Closure σ) (i : CodeUnit) : Apart c (c.linkInitializer i) := by
  unfold linkInitializer
  split
  · exact .refl c
  · exact ⟨rfl, rfl, fun _ => rfl⟩

/-- An initializer that is linked counts among the nodes that were made, and not among
    those made for calls. -/
theorem Accounts.linkInitializer (hc : Orderly h (some n) c.bare) (hacc : Accounts c) {i : CodeUnit}
    (hi : h.Mentions i) : Accounts (c.linkInitializer i) := by
  cases hl : c.graph.lookup i .everywhere with
  | some m =>
      rw [linkInitializer_of_some hl]
      exact hacc
  | none =>
      have hwf : (c.linkInitializer i).graph.WellFormed := by
        have hproc := (hc.linkInitializer hi).orderly.wellFormed
        rw [← bare_linkInitializer] at hproc
        exact hproc
      have hclinit : (c.newNode i).2.graph.contains c.clinitNode :=
        Graph.contains_iff.2 (hc.newNode hl hi).orderly.wellFormed.clinit
      rw [linkInitializer_of_none hl] at hwf ⊢
      have hcallees := Graph.callees_linked (u := i) hc.wellFormed hwf hclinit rfl
      refine ⟨?_, ?_, ?_⟩
      · -- The nodes made for calls are the same, and no question was put.
        refine Eq.trans ?_ (congrArg (List.map fun n => Question.initializer n.unit) hcallees.symm)
        exact hacc.asked
      · have hsplit := hacc.split
        refine Eq.trans ?_ (congrArg (fun l => l.length + (c.initializers + 1)) hcallees.symm)
        change c.created + 1 = c.graph.callees.length + (c.initializers + 1)
        omega
      · have hcreated := hacc.created
        refine Eq.trans ?_ Graph.live_called.symm
        change ((c.created + 1 : Nat) : Int) + 2 = c.graph.live + 1
        omega

/-- Looking for the node of a unit asks about its initializer if the node is new. So
    there are as many of these questions as nodes made for calls, in the same order. -/
theorem Accounts.nodeFor (hc : Orderly h (some n) c.bare) (hacc : Accounts c) {u : CodeUnit}
    (hu : h.Mentions u) : Accounts (c.nodeFor h u).2 ∧ Apart c (c.nodeFor h u).2 := by
  unfold Closure.nodeFor
  cases hl : c.graph.lookup u .everywhere with
  | some m => exact ⟨hacc, .refl c⟩
  | none =>
      have hc₁ := (hc.newNode hl hu).orderly
      rcases hask : (c.newNode u).2.ask (.initializer u) (h.initializer u) with ⟨o, c₂⟩
      have hanswer : ((h.initializer u).run c.world).1 = o := congrArg Prod.fst hask
      have hstate : ((c.newNode u).2.ask (.initializer u) (h.initializer u)).2 = c₂ :=
        congrArg Prod.snd hask
      have hasked : c₂.asked = c.asked ++ [.initializer u] := by
        rw [← hstate]
        rfl
      -- The state after asking has the graph in which the node was made.
      have hcallees : c₂.graph.callees = c.graph.callees ++ [(c.newNode u).1] := by
        rw [← hstate]
        exact Graph.callees_create hc.wellFormed hc₁.wellFormed
      have hacc₂ : Accounts c₂ := by
        refine ⟨?_, ?_, ?_⟩
        · have hput : c₂.questions .initializer = c.questions .initializer ++ [.initializer u] :=
            questions_concat hasked rfl
          rw [hput, hcallees, List.map_append, hacc.asked]
          rfl
        · have hsplit := hacc.split
          rw [hcallees, List.length_append, List.length_singleton, ← hstate]
          change c.created + 1 = c.graph.callees.length + 1 + c.initializers
          omega
        · have hcreated := hacc.created
          rw [← hstate]
          change ((c.created + 1 : Nat) : Int) + 2 = c.graph.live + 1
          omega
      have hapart : Apart c c₂ := by
        exact ⟨by rw [← hstate]; rfl, by rw [← hstate]; rfl,
          fun ht => questions_of_ne hasked ht.symm⟩
      have hbare : c₂.bare = (c.bare.newNode u).2 := by
        rw [← hstate]
        rfl
      simp only [hask]
      cases o with
      | none => exact ⟨hacc₂, hapart⟩
      | some i =>
          have hlink := apart_linkInitializer c₂ i
          rw [← hbare] at hc₁
          exact ⟨hacc₂.linkInitializer hc₁ (.initializer c.world hanswer),
            hlink.candidates.trans hapart.candidates, hlink.wrappers.trans hapart.wrappers,
            fun ht => (hlink.asked ht).trans (hapart.asked ht)⟩

/-- Linking a callee puts the questions that looking for its node does. The call comes
    from the node being read, which is not the fake world-clinit node, so the callee
    counts as made for a call. -/
theorem Accounts.link (hc : Orderly h (some n) c.bare) (hcached : Cached h c) (hacc : Accounts c)
    (site : CallSite) {u : CodeUnit} (hu : h.Mentions u) :
    Accounts (c.link h n site u) ∧ Apart c (c.link h n site u) := by
  have hlink : c.link h n site u = { (c.nodeFor h u).2 with
      graph := (c.nodeFor h u).2.graph.called n site (c.nodeFor h u).1 } := rfl
  have hwf : (c.link h n site u).graph.WellFormed :=
    (hc.move (move_link hcached site hu).1).orderly.wellFormed
  rcases hacc.nodeFor hc hu with ⟨hacc₁, hapart⟩
  have hproc := (hc.found (found_nodeFor hcached hu).1).1
  have hn := (hproc.orderly.busy_node rfl).1
  -- Edges from another node than the fake world-clinit node do not change who counts as a
  -- callee.
  have hcallees : (c.link h n site u).graph.callees = (c.nodeFor h u).2.graph.callees := by
    refine Graph.callees_congr hproc.orderly.wellFormed hwf Graph.contains_called ?_
    exact (Graph.calls_called hn).trans (or_iff_left fun hid => hc.busy_id hid.1.symm)
  refine ⟨⟨?_, ?_, ?_⟩, hapart.candidates, hapart.wrappers, hapart.asked⟩
  · rw [hcallees]
    exact hacc₁.asked
  · rw [hcallees]
    exact hacc₁.split
  · rw [hlink]
    exact hacc₁.created.trans Graph.live_called.symm

/-! ## Caches -/

/-- The candidates of a site come from the cache, or they are asked for and written to it. -/
theorem resolve_cases (h : Hierarchy σ) (c : Closure σ) (site : CallSite) :
    ((site.target, site.kind) ∈ c.candidates.keys ∧ (c.resolve h site).2 = c) ∨
    ((site.target, site.kind) ∉ c.candidates.keys ∧ ∃ us w, (c.resolve h site).2 =
      { c with
        world := w
        asked := c.asked ++ [.about (site.target, site.kind)]
        candidates := c.candidates.insert (site.target, site.kind) us }) := by
  rw [Table.mem_keys]
  unfold resolve Question.about
  cases hfind : c.candidates.find? (site.target, site.kind) with
  | some us => exact Or.inl ⟨rfl, rfl⟩
  | none =>
      refine Or.inr ⟨by simp, ?_⟩
      cases hk : site.kind.isOverriding with
      | true => exact ⟨_, _, rfl⟩
      | false => exact ⟨_, _, rfl⟩

/-- The function object of a site comes from the cache, or it is asked for and written to it. -/
theorem resolveWrapper_cases (h : Hierarchy σ) (c : Closure σ) (n : Node) (site : CallSite) :
    ((n.id, site) ∈ c.wrappers.keys ∧ (c.resolveWrapper h n site).2 = c) ∨
    ((n.id, site) ∉ c.wrappers.keys ∧ ∃ o w, (c.resolveWrapper h n site).2 =
      { c with
        world := w
        asked := c.asked ++ [.wrapper n site]
        wrappers := c.wrappers.insert (n.id, site) o }) := by
  rw [Table.mem_keys]
  unfold resolveWrapper
  cases hfind : c.wrappers.find? (n.id, site) with
  | some o => exact Or.inl ⟨rfl, rfl⟩
  | none => exact Or.inr ⟨by simp, _, _, rfl⟩

/-- The targets and dispatch kinds of the sites that call, as often as they were visited. -/
def calledKeys (visited : List (Node × CallSite)) : List (MethodRef × Dispatch) :=
  (visited.filter fun p => p.2.kind ≠ .dynamic).map fun p => (p.2.target, p.2.kind)

/-- The sites that make function objects, as often as they were visited. -/
def objectSites (visited : List (Node × CallSite)) : List (Node × CallSite) :=
  visited.filter fun p => p.2.kind = .dynamic

/-- What was asked about code, candidates and function objects when some nodes were read
    and some sites visited. The caches have what was asked. -/
structure Ledger (read : List Node) (visited : List (Node × CallSite)) (c : Closure σ) : Prop where
  inside : ∀ p ∈ visited, c.graph.contains p.1
  code : c.questions .code = (read.filter fun n => n.kind = .ordinary).map .callSites
  candidates_keys : c.candidates.keys = (calledKeys visited).eraseDups
  candidates : c.questions .candidates = (calledKeys visited).eraseDups.map .about
  wrappers_keys : c.wrappers.keys = (objectSites visited).eraseDups.map fun p => (p.1.id, p.2)
  wrappers : c.questions .functionObject =
    (objectSites visited).eraseDups.map fun p => .wrapper p.1 p.2

/-- Questions about initializers do not concern the other topics. -/
theorem Ledger.apart (hl : Ledger read visited c) (hapart : Apart c c')
    (hkeeps : ∀ {k}, c.graph.contains k → c'.graph.contains k) : Ledger read visited c' := by
  refine ⟨fun p hp => hkeeps (hl.inside p hp), ?_, ?_, ?_, ?_, ?_⟩
  · rw [hapart.asked (by decide)]
    exact hl.code
  · rw [hapart.candidates]
    exact hl.candidates_keys
  · rw [hapart.asked (by decide)]
    exact hl.candidates
  · rw [hapart.wrappers]
    exact hl.wrappers_keys
  · rw [hapart.asked (by decide)]
    exact hl.wrappers

/-- The node being read is in the graph, so its sites can be entered. -/
theorem inside_concat (hl : Ledger read visited c) (hn : c.graph.contains n) (site : CallSite) :
    ∀ p ∈ visited ++ [(n, site)], c.graph.contains p.1 := by
  intro p hp
  rcases List.mem_append.1 hp with hp | hp
  · exact hl.inside p hp
  · rw [List.mem_singleton.1 hp]
    exact hn

/-- A site that calls adds its key. If the key is new a question is put and the cache
    written, and otherwise neither is, so keys and questions stay in step. -/
theorem Ledger.resolve (hl : Ledger read visited c) (hn : c.graph.contains n) {site : CallSite}
    (hkind : site.kind ≠ .dynamic) :
    Ledger read (visited ++ [(n, site)]) (c.resolve h site).2 := by
  have hobjects : objectSites (visited ++ [(n, site)]) = objectSites visited := by
    simp [objectSites, hkind]
  have hkeys : calledKeys (visited ++ [(n, site)]) =
      calledKeys visited ++ [(site.target, site.kind)] := by
    simp [calledKeys, hkind]
  have hinside := inside_concat hl hn site
  rcases resolve_cases h c site with ⟨hmem, hsame⟩ | ⟨hmem, us, w, hnew⟩
  · -- The key was met before, so nothing was asked, and the list without repetitions stays.
    rw [hl.candidates_keys] at hmem
    rw [hsame]
    refine ⟨hinside, hl.code, ?_, ?_, by rw [hobjects]; exact hl.wrappers_keys,
      by rw [hobjects]; exact hl.wrappers⟩
    · rw [hkeys, eraseDups_concat, if_pos hmem]
      exact hl.candidates_keys
    · rw [hkeys, eraseDups_concat, if_pos hmem]
      exact hl.candidates
  · have hasked : (c.resolve h site).2.asked =
        c.asked ++ [.about (site.target, site.kind)] := by rw [hnew]
    have htopic := Question.topic_about (site.target, site.kind)
    have hother : ∀ {t}, t ≠ .candidates → (c.resolve h site).2.questions t = c.questions t :=
      fun ht => questions_of_ne hasked (htopic.trans_ne ht.symm)
    -- The key is new to the cache, and so it is new to the list of keys.
    have hfresh := hmem
    rw [hl.candidates_keys] at hfresh
    refine ⟨?_, ?_, ?_, ?_, ?_, ?_⟩
    · rw [hnew]
      exact hinside
    · rw [hother (by decide)]
      exact hl.code
    · rw [hkeys, eraseDups_concat, if_neg hfresh, hnew, Table.keys_insert, if_neg hmem,
        hl.candidates_keys]
    · rw [questions_concat hasked htopic, hkeys, eraseDups_concat, if_neg hfresh, List.map_append,
        hl.candidates]
      rfl
    · rw [hobjects, hnew]
      exact hl.wrappers_keys
    · rw [hother (by decide), hobjects]
      exact hl.wrappers

/-- The number of a node stands for the node, since all nodes that were read are in the graph. -/
theorem Ledger.mem_wrappers_keys (hl : Ledger read visited c) (hn : c.graph.contains n)
    {site : CallSite} :
    (n.id, site) ∈ c.wrappers.keys ↔ (n, site) ∈ (objectSites visited).eraseDups := by
  rw [hl.wrappers_keys, List.mem_map]
  constructor
  · rintro ⟨⟨m, s⟩, hm, heq⟩
    rw [Prod.mk.injEq] at heq
    have hin := hl.inside (m, s) (List.mem_of_mem_filter (List.mem_eraseDups.1 hm))
    rw [← Graph.eq_of_contains hin hn heq.1, ← heq.2]
    exact hm
  · intro hmem
    exact ⟨(n, site), hmem, rfl⟩

/-- A site that makes a function object adds itself. The cache is keyed by the number of
    the node, and the question names the node. -/
theorem Ledger.resolveWrapper (hl : Ledger read visited c) (hn : c.graph.contains n)
    {site : CallSite} (hkind : site.kind = .dynamic) :
    Ledger read (visited ++ [(n, site)]) (c.resolveWrapper h n site).2 := by
  have hobjects : objectSites (visited ++ [(n, site)]) = objectSites visited ++ [(n, site)] := by
    simp [objectSites, hkind]
  have hkeys : calledKeys (visited ++ [(n, site)]) = calledKeys visited := by
    simp [calledKeys, hkind]
  have hinside := inside_concat hl hn site
  rcases resolveWrapper_cases h c n site with ⟨hmem, hsame⟩ | ⟨hmem, o, w, hnew⟩
  · -- The site was met before at this node, so nothing was asked.
    rw [hl.mem_wrappers_keys hn] at hmem
    rw [hsame]
    refine ⟨hinside, hl.code, by rw [hkeys]; exact hl.candidates_keys,
      by rw [hkeys]; exact hl.candidates, ?_, ?_⟩
    · rw [hobjects, eraseDups_concat, if_pos hmem]
      exact hl.wrappers_keys
    · rw [hobjects, eraseDups_concat, if_pos hmem]
      exact hl.wrappers
  · have hasked : (c.resolveWrapper h n site).2.asked = c.asked ++ [.wrapper n site] := by rw [hnew]
    have hother : ∀ {t}, t ≠ .functionObject →
        (c.resolveWrapper h n site).2.questions t = c.questions t :=
      fun ht => questions_of_ne hasked ht.symm
    have hfresh := hmem
    rw [hl.mem_wrappers_keys hn] at hfresh
    refine ⟨?_, ?_, ?_, ?_, ?_, ?_⟩
    · rw [hnew]
      exact hinside
    · rw [hother (by decide)]
      exact hl.code
    · rw [hkeys, hnew]
      exact hl.candidates_keys
    · rw [hother (by decide), hkeys]
      exact hl.candidates
    · rw [hobjects, eraseDups_concat, if_neg hfresh, hnew, Table.keys_insert, if_neg hmem,
        hl.wrappers_keys, List.map_append]
      rfl
    · -- The question names the node and the site, and the key was made from the same two.
      have hput : (c.resolveWrapper h n site).2.questions .functionObject =
          c.questions .functionObject ++ [.wrapper n site] := questions_concat hasked rfl
      rw [hput, hobjects, eraseDups_concat, if_neg hfresh, List.map_append, hl.wrappers]
      rfl

/-! ## Reading a node -/

/-- The order of a closure together with all that was asked. -/
structure Tally (h : Hierarchy σ) (busy : Option Node) (read : List Node)
    (visited : List (Node × CallSite)) (c : Closure σ) : Prop where
  orderly : Orderly h busy c.bare
  cached : Cached h c
  accounts : Accounts c
  ledger : Ledger read visited c

/-- Accounts are about the graph, the two counters and the questions about initializers. -/
theorem Accounts.congr (hacc : Accounts c) (hbare : c'.bare = c.bare)
    (hasked : c'.questions .initializer = c.questions .initializer) : Accounts c' := by
  have hgraph : c'.graph = c.graph := congrArg (fun b => b.graph) hbare
  have hcreated : c'.created = c.created := congrArg (fun b => b.created) hbare
  have hcount : c'.initializers = c.initializers := congrArg (fun b => b.initializers) hbare
  refine ⟨?_, ?_, ?_⟩
  · rw [hasked, hgraph]
    exact hacc.asked
  · rw [hcreated, hgraph, hcount]
    exact hacc.split
  · rw [hcreated, hgraph]
    exact hacc.created

/-- Linking a callee visits no site and reads no node. -/
theorem Tally.link (ht : Tally h (some n) read visited c) (site : CallSite) {u : CodeUnit}
    (hu : h.Mentions u) : Tally h (some n) read visited (c.link h n site u) := by
  rcases move_link (n := n) ht.cached site hu with ⟨hmove, hcached⟩
  have hproc := ht.orderly.move hmove
  rcases ht.accounts.link ht.orderly ht.cached site hu with ⟨hacc, hapart⟩
  exact ⟨hproc.orderly, hcached, hacc, ht.ledger.apart hapart fun hk =>
    hproc.later.contains ht.orderly.wellFormed hproc.orderly.wellFormed hk⟩

theorem Tally.links (site : CallSite) : ∀ (us : List CodeUnit) {c : Closure σ},
    Tally h (some n) read visited c → (∀ u ∈ us, h.Mentions u) →
    Tally h (some n) read visited (us.foldl (Closure.link h n site) c) := by
  intro us
  induction us with
  | nil => exact fun ht _ => ht
  | cons u rest ih =>
      intro c ht hus
      exact ih (ht.link site (hus u List.mem_cons_self)) fun v hv =>
        hus v (List.mem_cons_of_mem u hv)

/-- Recording a site asks nothing. -/
theorem Tally.record (ht : Tally h (some n) read visited c) (site : CallSite) :
    Tally h (some n) read visited { c with graph := c.graph.recordSite n.id site } := by
  have hproc := ht.orderly.record site
  have hsame : ∀ {k}, (c.graph.recordSite n.id site).contains k ↔ c.graph.contains k :=
    (Graph.keeps_recordSite c.graph n.id site).contains_iff
  have hcallees : (c.graph.recordSite n.id site).callees = c.graph.callees :=
    Graph.callees_congr ht.orderly.wellFormed hproc.orderly.wellFormed hsame Graph.calls_recordSite
  refine ⟨hproc.orderly, ht.cached.congr rfl rfl, ⟨?_, ?_, ?_⟩,
    ht.ledger.apart ⟨rfl, rfl, fun _ => rfl⟩ hsame.2⟩
  · exact ht.accounts.asked.trans (congrArg (List.map _) hcallees.symm)
  · exact ht.accounts.split.trans (congrArg (fun l => l.length + c.initializers) hcallees.symm)
  · exact ht.accounts.created.trans (Graph.keeps_recordSite c.graph n.id site).live.symm

/-- A site that calls is visited: its question is put, or the cache has the answer. -/
theorem Tally.resolve (ht : Tally h (some n) read visited c) {site : CallSite}
    (hkind : site.kind ≠ .dynamic) :
    Tally h (some n) read (visited ++ [(n, site)]) (c.resolve h site).2 := by
  rcases mentions_resolve ht.cached site with ⟨hbare, hcached, _⟩
  refine ⟨by rw [hbare]; exact ht.orderly, hcached, ht.accounts.congr hbare ?_,
    ht.ledger.resolve (ht.orderly.busy_node rfl).1 hkind⟩
  rcases resolve_cases h c site with ⟨_, hsame⟩ | ⟨_, us, w, hnew⟩
  · rw [hsame]
  · refine questions_of_ne (q := .about (site.target, site.kind)) (by rw [hnew]) ?_
    rw [Question.topic_about]
    decide

/-- A site that makes a function object is visited. -/
theorem Tally.resolveWrapper (ht : Tally h (some n) read visited c) {site : CallSite}
    (hkind : site.kind = .dynamic) :
    Tally h (some n) read (visited ++ [(n, site)]) (c.resolveWrapper h n site).2 := by
  rcases mentions_resolveWrapper (n := n) ht.cached site with ⟨hbare, hcached, _⟩
  refine ⟨by rw [hbare]; exact ht.orderly, hcached, ht.accounts.congr hbare ?_,
    ht.ledger.resolveWrapper (ht.orderly.busy_node rfl).1 hkind⟩
  rcases resolveWrapper_cases h c n site with ⟨_, hsame⟩ | ⟨_, o, w, hnew⟩
  · rw [hsame]
  · exact questions_of_ne (q := .wrapper n site) (by rw [hnew]) (by simp [Question.topic])

/-- What a site adds: itself, to the sites that were visited. Which questions that makes
    is for the ledger to say. -/
theorem Tally.visitSite (ht : Tally h (some n) read visited c) (only : Bool) (site : CallSite) :
    Tally h (some n) read (visited ++ [(n, site)]) (c.visitSite h only n site) := by
  have hrecord := ht.record site
  -- Which of the two caches is used depends on the site, and both come to one more site
  -- visited.
  rcases answer_cases (P := fun us c' =>
      Tally h (some n) read (visited ++ [(n, site)]) c' ∧ ∀ u ∈ us, h.Mentions u)
    (fun hkind => ⟨hrecord.resolveWrapper hkind,
      (mentions_resolveWrapper (n := n) hrecord.cached site).2.2⟩)
    (fun hkind => ⟨hrecord.resolve hkind, (mentions_resolve hrecord.cached site).2.2⟩)
    with ⟨us, c₂, hask, hasked, hus⟩
  rw [visitSite_of_answer hask]
  exact hasked.links site _ fun u hu => hus u (List.mem_of_mem_filter hu)

/-- Sites are added in the order of the code. -/
theorem Tally.visitSites (only : Bool) : ∀ (sites : List CallSite)
    {visited : List (Node × CallSite)} {c : Closure σ}, Tally h (some n) read visited c →
    Tally h (some n) read (visited ++ sites.map fun site => (n, site))
      (sites.foldl (Closure.visitSite h only n) c) := by
  intro sites
  induction sites with
  | nil =>
      intro visited c ht
      rw [List.map_nil, List.append_nil]
      exact ht
  | cons site rest ih =>
      intro visited c ht
      have hrest := ih (ht.visitSite only site)
      rw [List.append_assoc, List.singleton_append] at hrest
      exact hrest

/-- The hierarchy is asked for the code of ordinary nodes. The root has its sites in the
    graph, and the other synthetic node has no code. -/
theorem sitesOf_cases (h : Hierarchy σ) (c : Closure σ) (n : Node) :
    (n.kind ≠ .ordinary ∧ (c.sitesOf h n).2 = c) ∨
    (n.kind = .ordinary ∧ ∃ w, (c.sitesOf h n).2 =
      { c with world := w, asked := c.asked ++ [.callSites n] }) := by
  unfold sitesOf
  cases n.kind with
  | fakeRoot => exact Or.inl ⟨by simp, rfl⟩
  | fakeWorldClinit => exact Or.inl ⟨by simp, rfl⟩
  | ordinary => exact Or.inr ⟨rfl, _, rfl⟩

/-- Asking for the code of a node adds the node. Nodes are read once, so no code is
    asked for twice. -/
theorem Tally.sitesOf (ht : Tally h (some n) read visited c) :
    Tally h (some n) (read ++ [n]) visited (c.sitesOf h n).2 := by
  have hl := ht.ledger
  rcases bare_sitesOf (n := n) ht.cached with ⟨hbare, hcached⟩
  rcases sitesOf_cases h c n with ⟨hkind, hsame⟩ | ⟨hkind, w, hnew⟩
  · -- A synthetic node has no code to ask for, and the ledger does not count it.
    rw [hsame]
    refine ⟨ht.orderly, ht.cached, ht.accounts, hl.inside, ?_, hl.candidates_keys, hl.candidates,
      hl.wrappers_keys, hl.wrappers⟩
    rw [hl.code, List.filter_append, List.filter_singleton]
    simp [hkind]
  · -- One question is put, about the code of the node, and no cache is written.
    have hasked : (c.sitesOf h n).2.asked = c.asked ++ [.callSites n] := by rw [hnew]
    have hother : ∀ {t}, t ≠ .code → (c.sitesOf h n).2.questions t = c.questions t :=
      fun hne => questions_of_ne hasked hne.symm
    have hput : (c.sitesOf h n).2.questions .code = c.questions .code ++ [.callSites n] :=
      questions_concat hasked rfl
    refine ⟨by rw [hbare]; exact ht.orderly, hcached, ht.accounts.congr hbare (hother (by decide)),
      ?_, ?_, ?_, ?_, ?_, ?_⟩
    · rw [hnew]
      exact hl.inside
    · rw [hput, hl.code, List.filter_append, List.filter_singleton]
      simp [hkind]
    · rw [hnew]
      exact hl.candidates_keys
    · rw [hother (by decide)]
      exact hl.candidates
    · rw [hnew]
      exact hl.wrappers_keys
    · rw [hother (by decide)]
      exact hl.wrappers

/-- What a node adds: itself, and the sites that its code has when it is read. -/
theorem Tally.step (ht : Tally h none read visited c) {rest : List Node}
    (hw : c.worklist = n :: rest) (only : Bool) :
    Tally h none (read ++ [n])
      (visited ++ (c.sitesOf h n).1.map fun site => (n, site))
      (Closure.step h only { c with worklist := rest } n) := by
  have htake : Tally h (some n) read visited { c with worklist := rest, pops := c.pops + 1 } :=
    ⟨ht.orderly.take hw, ht.cached.congr rfl rfl, ⟨ht.accounts.asked, ht.accounts.split,
      ht.accounts.created⟩, ht.ledger.apart ⟨rfl, rfl, fun _ => rfl⟩ id⟩
  -- What the code of a node is does not depend on who waits.
  have hsites : (Closure.sitesOf h { c with worklist := rest, pops := c.pops + 1 } n).1 =
      (c.sitesOf h n).1 := by
    unfold Closure.sitesOf
    cases n.kind with
    | fakeRoot => rfl
    | fakeWorldClinit => rfl
    | ordinary => rfl
  have hdone := htake.sitesOf.visitSites only
    (Closure.sitesOf h { c with worklist := rest, pops := c.pops + 1 } n).1
  rw [hsites] at hdone
  have hall : Tally h (some n) (read ++ [n])
      (visited ++ (c.sitesOf h n).1.map fun site => (n, site))
      (Closure.step h only { c with worklist := rest } n) := by
    rw [← hsites] at hdone ⊢
    exact hdone
  exact ⟨{ hall.orderly with busy_node := by simp }, hall.cached, hall.accounts, hall.ledger⟩

end Closure

end CallAtlas
