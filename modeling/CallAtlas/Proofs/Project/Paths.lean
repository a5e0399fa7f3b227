import CallAtlas.Path

/-!
# Clean Paths and the Way Between Them

A clean path from the root is a slash and steps with a slash between each two. Writing it
takes no thought. Reading it back gives the same steps because they are proper: none is
empty, none stays or leads up, and none has a slash inside.

The way from one clean path to another is written down, and whoever gets it has to find
out from its text whether it leads down. It does if the first path's steps are the first
steps of the second, and then the text is what follows. Otherwise it begins with a step
up. The converse fails: a way that leads down may begin with the same two characters,
since a proper step may begin with two dots.

## Main definitions

* `Path.Proper`: A step that leads down.
* `Path.Clean`: A clean path from the root, as it is written.
* `Path.inside`: What is written in front of everything below a path.

## Theorems

* `Text.pieces_eq_splitOn`, `Path.joined_eq_intercalate`: The library's names for these.
* `Text.afterFirst?_eq_none_iff`, `Text.exists_first`: What a search finds.
* `Path.parse_joined`: A clean path is read as it was written.
* `Path.clean_iff`: Clean paths are those that stay as they are.
* `Path.inside_append`, `Path.steps_of_inside`: What is below a path, in writing and in steps.
* `Path.way?_of_append`, `Path.exists_way?_up`: Ways that lead down, and others.
-/

namespace CallAtlas

namespace Text

variable {α : Type} [DecidableEq α] {sep : α} {xs ys zs : List α}

/-! ## Pieces -/

/-- The pieces of a text are what the library calls splitting at a separator. -/
theorem pieces_eq_splitOn (sep : α) (xs : List α) : pieces sep xs = xs.splitOn sep := by
  induction xs with
  | nil => rfl
  | cons x xs ih =>
      rw [List.splitOn_eq_splitOnP] at ih ⊢
      rw [pieces, ih, List.splitOnP_cons_eq_if_modifyHead]
      cases hp : List.splitOnP (fun y => y == sep) xs with
      | nil => exact absurd hp (List.splitOnP_ne_nil _ xs)
      | cons p ps => simp [List.modifyHead]

/-- Even an empty text has a piece. -/
theorem pieces_ne_nil (sep : α) (xs : List α) : pieces sep xs ≠ [] := by
  rw [pieces_eq_splitOn]
  exact List.splitOn_ne_nil _ _

/-- No piece has a separator in it. -/
theorem not_mem_of_mem_pieces {p : List α} (hp : p ∈ pieces sep xs) : sep ∉ p := by
  induction xs generalizing p with
  | nil =>
      obtain rfl : p = [] := by simpa [pieces] using hp
      exact List.not_mem_nil
  | cons x xs ih =>
      rw [pieces] at hp
      split at hp
      · rcases List.mem_cons.1 hp with rfl | hp
        · exact List.not_mem_nil
        · exact ih hp
      · next hx =>
        -- There is always a first piece, to which this element is put in front.
        cases hq : pieces sep xs with
        | nil =>
            obtain rfl : p = [x] := by simpa [hq] using hp
            simpa using Ne.symm hx
        | cons q qs =>
            rw [hq] at hp ih
            rcases List.mem_cons.1 hp with rfl | hp
            · rw [List.mem_cons, not_or]
              exact ⟨Ne.symm hx, ih List.mem_cons_self⟩
            · exact ih (List.mem_cons_of_mem q hp)

/-! ## Occurrences -/

/-- There is something after the front exactly if the text begins like this. -/
theorem afterFront?_isSome_iff : (afterFront? xs ys).isSome ↔ xs <+: ys := by
  rw [Option.isSome_iff_exists]
  refine exists_congr fun zs => ?_
  rw [afterFront?_eq_some_iff, eq_comm]

theorem afterFront?_eq_none_iff : afterFront? xs ys = none ↔ ¬xs <+: ys := by
  rw [← afterFront?_isSome_iff, Option.not_isSome_iff_eq_none]

/-- Nothing is found exactly if there is no occurrence. The search tries every place up
    to the end of the text, where only the empty text occurs. -/
theorem afterFirst?_eq_none_iff : afterFirst? xs ys = none ↔ ¬xs <:+: ys := by
  induction ys with
  | nil => rw [afterFirst?, afterFront?_eq_none_iff, List.prefix_nil, List.infix_nil]
  | cons y ys ih =>
      rw [afterFirst?, List.infix_cons_iff, not_or, ← ih, ← afterFront?_eq_none_iff]
      cases afterFront? xs (y :: ys) <;> simp

/-- A text that begins with what is looked for has its first occurrence there. -/
theorem afterFirst?_append (xs zs : List α) : afterFirst? xs (xs ++ zs) = some zs := by
  have hfront : afterFront? xs (xs ++ zs) = some zs := afterFront?_eq_some_iff.2 rfl
  cases hys : xs ++ zs with
  | nil => rw [afterFirst?, ← hys, hfront]
  | cons y ys => rw [afterFirst?, ← hys, hfront, Option.orElse_some]

/-- What is found follows an occurrence, and no other begins before it. -/
theorem exists_first (h : afterFirst? xs ys = some zs) :
    ∃ before, ys = before ++ xs ++ zs ∧
      ∀ before' zs', ys = before' ++ xs ++ zs' → before.length ≤ before'.length := by
  induction ys with
  | nil => exact ⟨[], afterFront?_eq_some_iff.1 h, fun _ _ _ => Nat.zero_le _⟩
  | cons y ys ih =>
      rw [afterFirst?] at h
      cases hfront : afterFront? xs (y :: ys) with
      | some rest =>
          obtain rfl : rest = zs := by simpa [hfront] using h
          exact ⟨[], afterFront?_eq_some_iff.1 hfront, fun _ _ _ => Nat.zero_le _⟩
      | none =>
          rcases ih (by simpa [hfront] using h) with ⟨before, hys, hfirst⟩
          refine ⟨y :: before, by rw [hys]; rfl, fun before' zs' hother => ?_⟩
          -- No occurrence is at the front, so another one begins after the first character too.
          cases before' with
          | nil => exact absurd ⟨zs', hother.symm⟩ (afterFront?_eq_none_iff.1 hfront)
          | cons y' before' =>
              exact Nat.succ_le_succ (hfirst before' zs' (List.cons.inj hother).2)

end Text

namespace Path

variable {cs rest step : List Char} {steps ds fs ts : List (List Char)}

/-! ## Clean paths -/

/-- A step that leads down. -/
structure Proper (step : List Char) : Prop where
  nonempty : step ≠ []
  not_stay : step ≠ ['.']
  not_up : step ≠ up
  slashless : '/' ∉ step

/-- A clean path from the root, as it is written. -/
def Clean (cs : List Char) : Prop := ∃ steps, (∀ s ∈ steps, Proper s) ∧ cs = '/' :: joined steps

theorem joined_cons_cons (step next : List Char) (more : List (List Char)) :
    joined (step :: next :: more) = step ++ '/' :: joined (next :: more) := rfl

/-- Steps are joined as the library intercalates them. -/
theorem joined_eq_intercalate (steps : List (List Char)) :
    joined steps = ['/'].intercalate steps := by
  induction steps with
  | nil => rfl
  | cons step rest ih =>
      cases rest with
      | nil => simp [joined]
      | cons next more => simp [joined_cons_cons, ih, List.intercalate_cons_cons]

theorem joined_pieces (cs : List Char) : joined (Text.pieces '/' cs) = cs := by
  rw [joined_eq_intercalate, Text.pieces_eq_splitOn, List.intercalate_splitOn]

/-- Joining steps without slashes and cutting at the slashes gives the steps back. There
    has to be a step, since no steps and one empty step are written alike. -/
theorem pieces_joined (hne : steps ≠ []) (h : ∀ s ∈ steps, '/' ∉ s) :
    Text.pieces '/' (joined steps) = steps := by
  rw [joined_eq_intercalate, Text.pieces_eq_splitOn, List.splitOn_intercalate '/' h hne]

/-- Steps that follow others are written behind a slash. -/
theorem joined_append (hds : ds ≠ []) (hfs : fs ≠ []) :
    joined (ds ++ fs) = joined ds ++ '/' :: joined fs := by
  induction ds with
  | nil => exact absurd rfl hds
  | cons step rest ih =>
      -- Whether a slash is written depends on whether something follows.
      cases rest with
      | nil =>
          cases fs with
          | nil => exact absurd rfl hfs
          | cons next more => rfl
      | cons next more =>
          have hrest := ih (List.cons_ne_nil next more)
          rw [List.cons_append] at hrest
          rw [List.cons_append, List.cons_append, joined_cons_cons, joined_cons_cons, hrest,
            List.append_assoc, List.cons_append]

/-- Steps that occur among others in a row occur in what these are written as. The
    converse fails, since an occurrence in writing may begin or end within a step. -/
theorem joined_infix (hds : ds ≠ []) (h : ds <:+: fs) : joined ds <:+: joined fs := by
  rcases h with ⟨front, back, rfl⟩
  -- What comes behind in steps comes behind in writing, after a slash if there is anything.
  have hback : joined ds <+: joined (ds ++ back) := by
    by_cases hne : back = []
    · simp [hne]
    · rw [joined_append hds hne]
      exact List.prefix_append _ _
  have hfront : joined (ds ++ back) <:+ joined (front ++ (ds ++ back)) := by
    by_cases hne : front = []
    · simp [hne]
    · rw [joined_append hne (by simp [hds])]
      exact (List.suffix_cons '/' _).trans (List.suffix_append _ _)
  rw [List.append_assoc]
  exact hback.isInfix.trans hfront.isInfix

/-- Proper steps are taken one after the other. Nothing is left out and nothing taken
    back, so reading does not change them. -/
theorem foldl_extend (rooted : Bool) (back : List (List Char)) (h : ∀ s ∈ steps, Proper s) :
    steps.foldl (extend rooted) back = steps.reverse ++ back := by
  induction steps generalizing back with
  | nil => rfl
  | cons step rest ih =>
      have hstep := h step List.mem_cons_self
      have hextend : extend rooted back step = step :: back := by
        simp [extend, hstep.nonempty, hstep.not_stay, hstep.not_up]
      rw [List.foldl_cons, hextend, ih _ fun s hs => h s (List.mem_cons_of_mem step hs)]
      simp

/-- A clean path is read as it was written. -/
theorem parse_joined (h : ∀ s ∈ steps, Proper s) : parse ('/' :: joined steps) = ⟨true, steps⟩ := by
  have hfold : (Text.pieces '/' (joined steps)).foldl (extend true) [] = steps.reverse := by
    cases steps with
    | nil => rfl
    | cons step rest =>
        rw [pieces_joined (List.cons_ne_nil _ _) fun s hs => (h s hs).slashless,
          foldl_extend true [] h, List.append_nil]
  -- The slash in front makes an empty piece, which is no step.
  have hpieces : Text.pieces '/' ('/' :: joined steps) = [] :: Text.pieces '/' (joined steps) := rfl
  simp [parse, hpieces, extend, hfold]

/-- Reading one more piece of a path from the root leaves proper steps. A step up takes
    back the one before it, and at the root there is none to take back. -/
theorem Proper.of_extend {back : List (List Char)} {piece : List Char}
    (hback : ∀ s ∈ back, Proper s) (hpiece : '/' ∉ piece) (hstep : step ∈ extend true back piece) :
    Proper step := by
  unfold extend at hstep
  split at hstep
  · exact hback step hstep
  · next hstays =>
    simp only [Bool.or_eq_true, decide_eq_true_eq, not_or] at hstays
    split at hstep
    · -- The last step is no step up, so it is taken back.
      cases back with
      | nil => exact absurd hstep List.not_mem_nil
      | cons last before =>
          have hlast := (hback last List.mem_cons_self).not_up
          simp only [if_neg hlast] at hstep
          exact hback step (List.mem_cons_of_mem last hstep)
    · next hup =>
      rcases List.mem_cons.1 hstep with rfl | hstep
      · exact ⟨hstays.1, hstays.2, hup, hpiece⟩
      · exact hback step hstep

/-- Reading pieces of a path from the root leaves proper steps. -/
theorem Proper.of_foldl {back pieces : List (List Char)} (hback : ∀ s ∈ back, Proper s)
    (hpieces : ∀ s ∈ pieces, '/' ∉ s) (hstep : step ∈ pieces.foldl (extend true) back) :
    Proper step := by
  induction pieces generalizing back with
  | nil => exact hback step hstep
  | cons piece rest ih =>
      have hnext : ∀ s ∈ extend true back piece, Proper s := fun s hs =>
        .of_extend hback (hpieces piece List.mem_cons_self) hs
      exact ih hnext (fun s hs => hpieces s (List.mem_cons_of_mem piece hs)) hstep

/-- Clean paths are those that stay as they are when they are read and written again.
    This makes being clean decidable, and says that it is what cleaning a path comes to. -/
theorem clean_iff : Clean cs ↔ cs.head? = some '/' ∧ (parse cs).text = cs := by
  constructor
  · rintro ⟨steps, hsteps, rfl⟩
    exact ⟨rfl, by rw [parse_joined hsteps]; rfl⟩
  · rintro ⟨hroot, htext⟩
    have hparse : parse cs =
        ⟨true, ((Text.pieces '/' cs).foldl (extend true) []).reverse⟩ := by simp [parse, hroot]
    rw [hparse] at htext
    refine ⟨_, fun s hs => ?_, htext.symm⟩
    exact .of_foldl (fun s hs => absurd hs List.not_mem_nil)
      (fun s hs => Text.not_mem_of_mem_pieces hs) (List.mem_reverse.1 hs)

instance (cs : List Char) : Decidable (Clean cs) := decidable_of_iff _ clean_iff.symm

/-! ## Below a path -/

/-- What is written in front of everything below a path. -/
def inside (dir : List Char) : List Char := if dir = ['/'] then dir else dir ++ ['/']

/-- Proper steps are not written as nothing. -/
theorem joined_ne_nil (hne : steps ≠ []) (h : ∀ s ∈ steps, Proper s) : joined steps ≠ [] := by
  cases steps with
  | nil => exact absurd rfl hne
  | cons step rest =>
      have hstep := (h step List.mem_cons_self).nonempty
      cases rest with
      | nil => exact hstep
      | cons next more => simp [joined, hstep]

theorem inside_of_ne_nil (hne : ds ≠ []) (h : ∀ s ∈ ds, Proper s) :
    inside ('/' :: joined ds) = '/' :: joined ds ++ ['/'] := by
  rw [inside, if_neg]
  simpa using joined_ne_nil hne h

/-- What is below a path in steps is below it in writing. -/
theorem inside_append (hds : ∀ s ∈ ds, Proper s) (hfs : fs ≠ []) :
    '/' :: joined (ds ++ fs) = inside ('/' :: joined ds) ++ joined fs := by
  by_cases hne : ds = []
  · rw [hne]
    rfl
  · rw [inside_of_ne_nil hne hds, joined_append hne hfs]
    simp

/-- What is below a path in writing is below it in steps. The slash behind the directory
    is what makes the difference: without it a step could be cut in two. -/
theorem steps_of_inside (hds : ∀ s ∈ ds, Proper s) (hfs : ∀ s ∈ fs, Proper s) (hrest : rest ≠ [])
    (h : '/' :: joined fs = inside ('/' :: joined ds) ++ rest) :
    fs = ds ++ Text.pieces '/' rest := by
  have hslashless : ∀ {ss : List (List Char)}, (∀ s ∈ ss, Proper s) → ∀ s ∈ ss, '/' ∉ s :=
    fun hss s hs => (hss s hs).slashless
  -- Neither the front nor the rest is empty, and a path without steps is a slash only.
  have hne : fs ≠ [] := by
    rintro rfl
    have hfront : inside ('/' :: joined ds) ≠ [] := by
      rw [inside]
      split <;> simp
    have hlength : 1 = (inside ('/' :: joined ds)).length + rest.length := by
      simpa [joined] using congrArg List.length h
    have hpos := List.length_pos_iff.2 hfront
    have hpos' := List.length_pos_iff.2 hrest
    omega
  rw [← pieces_joined hne (hslashless hfs)]
  by_cases hnil : ds = []
  · subst hnil
    obtain rfl : joined fs = rest := (List.cons.inj h).2
    rfl
  · rw [inside_of_ne_nil hnil hds] at h
    have htext : joined fs = joined ds ++ '/' :: rest := by simpa using h
    rw [htext, Text.pieces_eq_splitOn, List.splitOn_append_cons_self, ← Text.pieces_eq_splitOn,
      ← Text.pieces_eq_splitOn, pieces_joined hnil (hslashless hds)]

/-! ## Ways -/

theorem afterCommon_append (common bs ts : List (List Char)) :
    afterCommon (common ++ bs) (common ++ ts) = afterCommon bs ts := by
  induction common with
  | nil => rfl
  | cons step rest ih => simp [afterCommon, ih]

/-- What two paths have in common is the front of both. -/
theorem exists_common (bs ts : List (List Char)) :
    ∃ common, bs = common ++ (afterCommon bs ts).1 ∧ ts = common ++ (afterCommon bs ts).2 := by
  fun_induction afterCommon bs ts with
  | case1 bs step ts ih =>
      rcases ih with ⟨common, hbs, hts⟩
      exact ⟨step :: common, congrArg (step :: ·) hbs, congrArg (step :: ·) hts⟩
  | case2 => exact ⟨[], rfl, rfl⟩
  | case3 => exact ⟨[], rfl, rfl⟩

theorem way?_of_rooted_ne {base target : Path} (h : base.rooted ≠ target.rooted) :
    way? base target = none := by
  rw [way?, stepsFrom?, if_pos h]
  rfl

theorem way?_self (p : Path) : way? p p = some ['.'] := by
  have hcommon := afterCommon_append p.steps [] []
  rw [List.append_nil] at hcommon
  simp [way?, stepsFrom?, hcommon, afterCommon]

/-- The way to what is below a path is what follows. -/
theorem way?_of_append (hfs : fs ≠ []) : way? ⟨true, ds⟩ ⟨true, ds ++ fs⟩ = some (joined fs) := by
  have hcommon := afterCommon_append ds [] fs
  rw [List.append_nil] at hcommon
  simp [way?, stepsFrom?, hcommon, afterCommon, hfs]

theorem up_front_joined (steps : List (List Char)) : up <+: joined (up :: steps) := by
  cases steps with
  | nil => exact List.prefix_rfl
  | cons next more => exact List.prefix_append up _

/-- The way to anything else begins with a step up. If the directory is not in front of
    the target, it has a step that the target does not share, and this step has to be
    undone. -/
theorem exists_way?_up (hds : ∀ s ∈ ds, Proper s) (hnot : ¬ds <+: ts) :
    ∃ way, way? ⟨true, ds⟩ ⟨true, ts⟩ = some way ∧ up <+: way := by
  rcases exists_common ds ts with ⟨common, hbase, htarget⟩
  cases hcommon : afterCommon ds ts with
  | mk back on =>
      rw [hcommon] at hbase htarget
      cases back with
      -- With no step back left, the directory would be in front of the target.
      | nil => exact absurd ⟨on, by rw [htarget, hbase]; simp⟩ hnot
      | cons first more =>
          -- A proper step is not a step up, so it can be undone.
          have hfirst : Proper first := hds first (by rw [hbase]; simp)
          have hsteps : stepsFrom? ⟨true, ds⟩ ⟨true, ts⟩ =
              some (up :: (more.map (fun _ => up) ++ on)) := by
            simp [stepsFrom?, hcommon, hfirst.not_up]
          exact ⟨_, by rw [way?, hsteps]; rfl, up_front_joined _⟩

end Path

end CallAtlas
