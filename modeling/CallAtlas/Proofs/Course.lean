import CallAtlas.Refine.Loop

/-!
# The Course of a Run

The pass loop reports how it ended and counts its passes. It does not report how often it
looked whether its caller still waits, which budgets it handed out, or how often it had
the policy prepared, and a query or a policy that keeps a state of its own depends on all
three. This module gives the log of a run: everything the loop does, in order, with the
answers it got.

A log has one shape. It begins with rounds that settled nothing, each of them a look, a
pass and a change of the policy, and it ends in one of five ways. `Takes` says what a log
means: each entry has the answer that is given in the state it was taken in, and the last
state is the one the loop leaves behind. Policy and query are arbitrary, so nothing can
happen between the entries of a log.

A pass that ran out of budget settles nothing, whatever it says about the client.

## Main definitions

* `Refine.Action`: Something the loop does, with the answer it gets.
* `Refine.Takes`: A log leads from one state to another.
* `Refine.Draw`: How a pass ends that settles nothing.
* `Refine.Ending`: How a run ends.
* `Refine.logOf`: The log of rounds that settle nothing and of an ending.
* `Refine.answers`, `Refine.changes`: What passes and policy answer in a log.

## Theorems

* `Refine.runFrom_course`: The log of a loop that begins at any pass.
* `Refine.outcome_read_off_log`: The log of a run, and how its result is read off.
-/

namespace CallAtlas

namespace Refine

variable {σ ε π : Type} [RefinementPolicy π]

/-! ## Logs -/

/-- Something the loop does, with the answer it gets. -/
inductive Action (ε : Type) where
  /-- It looks whether its caller still waits. -/
  | poll (found : Option EndCause)
  /-- It runs a pass of the query. -/
  | query (pass : Nat) (budget : Budget) (answer : PassAnswer ε)
  /-- It has the policy prepared for another pass. -/
  | nextPass (changed : Bool)

/-- The state after a look. -/
def looked (s : PassState σ π) : PassState σ π := { s with life := s.life.poll.2 }

/-- The budget of a pass: nothing of it is used, and the policy sets the limit. -/
def budgetOf (s : PassState σ π) (pass : Nat) : Budget :=
  { limit := RefinementPolicy.budgetForPass s.policy pass, used := 0 }

/-- The state after the policy was prepared for another pass. -/
def prepared (s : PassState σ π) : PassState σ π :=
  { s with policy := (RefinementPolicy.nextPass s.policy).1 }

/-- A log leads from one state to another, and each entry has the answer that is given
    in the state it is taken in. -/
def Takes (q : Query σ ε π) : PassState σ π → List (Action ε) → PassState σ π → Prop
  | s, [], t => t = s
  | s, .poll found :: rest, t => s.life.poll.1 = found ∧ Takes q (looked s) rest t
  | s, .query pass budget answer :: rest, t =>
    budget = budgetOf s pass ∧ (q pass budget s).1 = answer ∧ Takes q (q pass budget s).2 rest t
  | s, .nextPass changed :: rest, t =>
    (RefinementPolicy.nextPass s.policy).2 = changed ∧ Takes q (prepared s) rest t

/-- What the passes of a log answer. -/
def answers (log : List (Action ε)) : List (PassAnswer ε) :=
  log.filterMap fun
    | .query _ _ answer => some answer
    | .poll _ | .nextPass _ => none

/-- What the policy answers in a log when it is prepared for another pass. -/
def changes (log : List (Action ε)) : List Bool :=
  log.filterMap fun
    | .nextPass changed => some changed
    | .poll _ | .query _ _ _ => none

/-- How a pass ends that settles nothing: the client is not satisfied, or the budget was
    too small, whatever the pass says about the client. -/
inductive Draw where
  | unsatisfied
  | outOfBudget (satisfied : Bool)

/-- The answer of a pass that settles nothing. -/
def Draw.answer : Draw → PassAnswer ε
  | unsatisfied => { satisfied := false }
  | outOfBudget satisfied => { satisfied, error := some .outOfBudget }

/-- How a run ends. -/
inductive Ending (ε : Type) where
  /-- All passes were used. -/
  | exhausted
  /-- The caller was found to wait no longer. -/
  | cancelled (cause : EndCause)
  /-- A pass failed, whatever it says about the client. -/
  | failed (budget : Budget) (satisfied : Bool) (e : ε)
  /-- A pass satisfied the client. -/
  | success (budget : Budget)
  /-- A pass settled nothing and the policy had nothing to change. -/
  | unchanged (budget : Budget) (draw : Draw)

namespace Ending

/-- The end of a log, with the last pass numbered `pass`. -/
def actions (pass : Nat) : Ending ε → List (Action ε)
  | exhausted => []
  | cancelled cause => [.poll (some cause)]
  | failed budget satisfied e =>
    [.poll none, .query pass budget { satisfied, error := some (.failed e) }]
  | success budget => [.poll none, .query pass budget { satisfied := true }]
  | unchanged budget draw => [.poll none, .query pass budget draw.answer, .nextPass false]

/-- The error of a run. -/
def error : Ending ε → Option (LoopError ε)
  | cancelled cause => some (.cancelled cause)
  | failed _ _ e => some (.query e)
  | exhausted | success _ | unchanged _ _ => none

/-- The result of a run without an error in which some passes kept their budget; a run
    with an error has the result that there was before. -/
def result (completed : Int) (before : LoopResult) : Ending ε → LoopResult
  | cancelled _ | failed _ _ _ => before
  | success _ => .success
  | unchanged _ _ => if completed > 0 then .noMoreRefine else .budgetExceeded
  | exhausted => .budgetExceeded

end Ending

/-- The log of some rounds that settle nothing, the first of them numbered `pass`, and
    of an ending. -/
def logOf (pass : Nat) : List (Budget × Draw) → Ending ε → List (Action ε)
  | [], e => e.actions pass
  | (budget, draw) :: rest, e =>
    .poll none :: .query pass budget draw.answer :: .nextPass true :: logOf (pass + 1) rest e

/-- The passes of a log that returned no error. -/
def completedIn (log : List (Action ε)) : List (PassAnswer ε) :=
  (answers log).filter fun a => a.error.isNone

/-! ## What one pass of the loop does -/

variable {q : Query σ ε π} {s s' : PassState σ π} {left pass : Nat} {out : Outcome}

omit [RefinementPolicy π] in
theorem poll_eq {found : Option EndCause} (h : s.life.poll.1 = found) :
    s.life.poll = (found, (looked s).life) := by
  rw [← h]
  rfl

theorem pass_eq {a : PassAnswer ε × PassState σ π}
    (h : q pass (budgetOf s pass) (looked s) = a) :
    q pass { limit := RefinementPolicy.budgetForPass s.policy pass }
      { s with life := (looked s).life } = a := h

theorem runFrom_of_ended {cause : EndCause} (hpoll : s.life.poll.1 = some cause) :
    runFrom q (left + 1) pass out s = (out, some (.cancelled cause), looked s) := by
  simp only [runFrom, poll_eq hpoll]
  rfl

/-- A pass that fails ends the loop. It is counted, though not as completed. -/
theorem runFrom_of_failed (hpoll : s.life.poll.1 = none) {satisfied : Bool} {e : ε}
    (hq : q pass (budgetOf s pass) (looked s) = (⟨satisfied, some (.failed e)⟩, s')) :
    runFrom q (left + 1) pass out s =
      ({ out with passes := out.passes + 1 }, some (.query e), s') := by
  simp only [runFrom, poll_eq hpoll, pass_eq hq]

theorem runFrom_of_success (hpoll : s.life.poll.1 = none)
    (hq : q pass (budgetOf s pass) (looked s) = (⟨true, none⟩, s')) :
    runFrom q (left + 1) pass out s =
      ({ out with passes := out.passes + 1, result := .success, completed := out.completed + 1 },
        none, s') := by
  simp only [runFrom, poll_eq hpoll, pass_eq hq]

/-- The counts after a pass that settled nothing. -/
def counted (out : Outcome) : Draw → Outcome
  | .unsatisfied => { out with passes := out.passes + 1, completed := out.completed + 1 }
  | .outOfBudget _ => { out with passes := out.passes + 1 }

/-- However a pass ends that settles nothing, it is counted. -/
theorem passes_counted (out : Outcome) (draw : Draw) :
    (counted out draw).passes = out.passes + 1 := by
  cases draw <;> rfl

theorem result_counted (out : Outcome) (draw : Draw) : (counted out draw).result = out.result := by
  cases draw <;> rfl

/-- After a pass that settled nothing the policy decides whether there is another. An
    exceeded budget and an unsatisfied client differ only in the counts. -/
theorem runFrom_of_draw (hpoll : s.life.poll.1 = none) {draw : Draw}
    (hq : q pass (budgetOf s pass) (looked s) = (draw.answer, s')) :
    runFrom q (left + 1) pass out s =
      if (RefinementPolicy.nextPass s'.policy).2 then
        runFrom q left (pass + 1) (counted out draw) (prepared s')
      else (conclude (counted out draw) true, none, prepared s') := by
  cases draw with
  | unsatisfied =>
      simp only [runFrom, poll_eq hpoll, pass_eq hq, Draw.answer]
      rfl
  | outOfBudget satisfied =>
      simp only [runFrom, poll_eq hpoll, pass_eq hq, Draw.answer]
      rfl

/-! ## The log of a run -/

/-- A loop takes the course of some rounds that settle nothing and an ending: all passes
    left are used if it says so, the log leads to the last state, and the counts and the
    result are those of the log. -/
structure Course (q : Query σ ε π) (left pass : Nat) (out : Outcome) (s : PassState σ π)
    (early : List (Budget × Draw)) (e : Ending ε)
    (r : Outcome × Option (LoopError ε) × PassState σ π) : Prop where
  length_le : early.length ≤ left
  exhausted_iff : e = .exhausted ↔ early.length = left
  takes : Takes q s (logOf pass early e) r.2.2
  error_eq : r.2.1 = e.error
  passes_eq : r.1.passes = out.passes + (answers (logOf pass early e)).length
  completed_eq : r.1.completed = out.completed + (completedIn (logOf pass early e)).length
  result_eq : r.1.result = e.result r.1.completed out.result

namespace Course

theorem exhausted : Course q 0 pass out s [] .exhausted (conclude out false, none, s) :=
  ⟨Nat.le_refl 0, by simp, rfl, rfl, (Int.add_zero _).symm, (Int.add_zero _).symm, rfl⟩

theorem cancelled {cause : EndCause} (hpoll : s.life.poll.1 = some cause) :
    Course q (left + 1) pass out s [] (.cancelled cause)
      (out, some (.cancelled cause), looked s) :=
  ⟨Nat.zero_le _, by simp, ⟨hpoll, rfl⟩, rfl, (Int.add_zero _).symm, (Int.add_zero _).symm, rfl⟩

theorem failed (hpoll : s.life.poll.1 = none) {satisfied : Bool} {e : ε}
    (hq : q pass (budgetOf s pass) (looked s) = (⟨satisfied, some (.failed e)⟩, s')) :
    Course q (left + 1) pass out s [] (.failed (budgetOf s pass) satisfied e)
      ({ out with passes := out.passes + 1 }, some (.query e), s') :=
  ⟨Nat.zero_le _, by simp, ⟨hpoll, rfl, congrArg Prod.fst hq, (congrArg Prod.snd hq).symm⟩, rfl,
    rfl, (Int.add_zero _).symm, rfl⟩

theorem success (hpoll : s.life.poll.1 = none)
    (hq : q pass (budgetOf s pass) (looked s) = (⟨true, none⟩, s')) :
    Course q (left + 1) pass out s [] (.success (budgetOf s pass))
      ({ out with passes := out.passes + 1, result := .success, completed := out.completed + 1 },
        none, s') :=
  ⟨Nat.zero_le _, by simp, ⟨hpoll, rfl, congrArg Prod.fst hq, (congrArg Prod.snd hq).symm⟩, rfl,
    rfl, rfl, rfl⟩

/-- The log of a loop ends with the answer of a policy that had nothing to change. -/
theorem unchanged (hpoll : s.life.poll.1 = none) {draw : Draw}
    (hq : q pass (budgetOf s pass) (looked s) = (draw.answer, s'))
    (hnext : (RefinementPolicy.nextPass s'.policy).2 = false) :
    Course q (left + 1) pass out s [] (.unchanged (budgetOf s pass) draw)
      (conclude (counted out draw) true, none, prepared s') := by
  have hstate : (q pass (budgetOf s pass) (looked s)).2 = s' := congrArg Prod.snd hq
  have htakes : Takes q s (logOf pass [] (.unchanged (budgetOf s pass) draw)) (prepared s') :=
    ⟨hpoll, rfl, congrArg Prod.fst hq, by rw [hstate]; exact hnext, by rw [hstate]; rfl⟩
  cases draw with
  | unsatisfied =>
      exact ⟨Nat.zero_le _, by simp, htakes, rfl, rfl, rfl, by simp [conclude, Ending.result]⟩
  | outOfBudget satisfied =>
      exact ⟨Nat.zero_le _, by simp, htakes, rfl, rfl, (Int.add_zero _).symm,
        by simp [conclude, Ending.result]⟩

/-- A round that settles nothing goes before the rest of the course. The counts of the
    rest begin where those of the round end, which is why a course is stated for any
    counts. -/
theorem cons (hpoll : s.life.poll.1 = none) {draw : Draw}
    (hq : q pass (budgetOf s pass) (looked s) = (draw.answer, s'))
    (hnext : (RefinementPolicy.nextPass s'.policy).2 = true) {early : List (Budget × Draw)}
    {e : Ending ε} {r : Outcome × Option (LoopError ε) × PassState σ π}
    (hrest : Course q left (pass + 1) (counted out draw) (prepared s') early e r) :
    Course q (left + 1) pass out s ((budgetOf s pass, draw) :: early) e r := by
  have hstate : (q pass (budgetOf s pass) (looked s)).2 = s' := congrArg Prod.snd hq
  refine ⟨Nat.succ_le_succ hrest.length_le, ?_, ⟨hpoll, rfl, congrArg Prod.fst hq, ?_, ?_⟩,
    hrest.error_eq, ?_, ?_, ?_⟩
  · -- One round more has been made, and one pass less was left before it.
    rw [hrest.exhausted_iff, List.length_cons, Nat.succ_inj]
  · rw [hstate]
    exact hnext
  · rw [hstate]
    exact hrest.takes
  · have hanswers : answers (logOf pass ((budgetOf s pass, draw) :: early) e) =
        draw.answer :: answers (logOf (pass + 1) early e) := rfl
    rw [hrest.passes_eq, hanswers, List.length_cons, passes_counted]
    omega
  · -- Only a pass that came to its end counts as completed.
    rw [hrest.completed_eq]
    cases draw with
    | unsatisfied =>
        have hcompleted : completedIn (logOf pass ((budgetOf s pass, .unsatisfied) :: early) e) =
            Draw.unsatisfied.answer :: completedIn (logOf (pass + 1) early e) := rfl
        have hcounted : (counted out .unsatisfied).completed = out.completed + 1 := rfl
        rw [hcompleted, List.length_cons, hcounted]
        omega
    | outOfBudget satisfied => rfl
  · rw [hrest.result_eq, result_counted]

end Course

/-- The log of a loop that begins at any pass, with any counts. The induction is on the
    passes that are left, and each of the ways in which a pass can end is one case of
    it. -/
theorem runFrom_course (q : Query σ ε π) : ∀ (left pass : Nat) (out : Outcome) (s : PassState σ π),
    ∃ early e, Course q left pass out s early e (runFrom q left pass out s) := by
  intro left
  induction left with
  | zero => exact fun pass out s => ⟨[], .exhausted, .exhausted⟩
  | succ left ih =>
      intro pass out s
      cases hpoll : s.life.poll.1 with
      | some cause =>
          rw [runFrom_of_ended hpoll]
          exact ⟨[], _, .cancelled hpoll⟩
      | none =>
          rcases hq : q pass (budgetOf s pass) (looked s) with ⟨⟨satisfied, error⟩, s'⟩
          -- What settles nothing is decided by the policy.
          have hdraw : ∀ draw : Draw, q pass (budgetOf s pass) (looked s) = (draw.answer, s') →
              ∃ early e, Course q (left + 1) pass out s early e
                (runFrom q (left + 1) pass out s) := by
            intro draw hq
            rw [runFrom_of_draw hpoll hq]
            cases hnext : (RefinementPolicy.nextPass s'.policy).2 with
            | false => exact ⟨[], _, .unchanged hpoll hq hnext⟩
            | true =>
                rcases ih (pass + 1) (counted out draw) (prepared s') with ⟨early, e, hrest⟩
                exact ⟨_, e, .cons hpoll hq hnext hrest⟩
          cases error with
          | none =>
              cases satisfied with
              | true =>
                  rw [runFrom_of_success hpoll hq]
                  exact ⟨[], _, .success hpoll hq⟩
              | false => exact hdraw .unsatisfied hq
          | some error =>
              cases error with
              | outOfBudget => exact hdraw (.outOfBudget satisfied) hq
              | failed e =>
                  rw [runFrom_of_failed hpoll hq]
                  exact ⟨[], _, .failed hpoll hq⟩

/-! ## Reading a log -/

/-- The answers of a log: those of the rounds, then those of the ending. The number of
    the pass does not matter. -/
theorem answers_logOf (early : List (Budget × Draw)) (e : Ending ε) (pass : Nat) :
    answers (logOf pass early e) = early.map (·.2.answer) ++ answers (e.actions 0) := by
  induction early generalizing pass with
  | nil => cases e <;> rfl
  | cons x rest ih => exact congrArg (x.2.answer :: ·) (ih (pass + 1))

theorem changes_logOf (early : List (Budget × Draw)) (e : Ending ε) (pass : Nat) :
    changes (logOf pass early e) = early.map (fun _ => true) ++ changes (e.actions 0) := by
  induction early generalizing pass with
  | nil => cases e <;> rfl
  | cons x rest ih => exact congrArg (true :: ·) (ih (pass + 1))

/-- A pass that settles nothing is not the last one of a success. -/
theorem getLast?_answers_ne (early : List (Budget × Draw)) :
    (early.map (·.2.answer)).getLast? ≠ some (⟨true, none⟩ : PassAnswer ε) := by
  intro hlast
  rcases List.mem_map.1 (List.mem_of_getLast? hlast) with ⟨⟨_, draw⟩, _, hdraw⟩
  cases draw <;> simp [Draw.answer] at hdraw

/-- A run uses no pass that is not in the schedule. The ending takes one more pass than
    the rounds, unless the schedule is exhausted by then. -/
theorem Course.length_answers_le {early : List (Budget × Draw)} {e : Ending ε}
    {r : Outcome × Option (LoopError ε) × PassState σ π}
    (hcourse : Course q left pass out s early e r) :
    (answers (logOf pass early e)).length ≤ left := by
  have hle := hcourse.length_le
  have hlength : (answers (e.actions 0)).length ≤ 1 := by cases e <;> simp [answers, Ending.actions]
  rw [answers_logOf, List.length_append, List.length_map]
  by_cases hend : e = .exhausted
  · subst hend
    exact hle
  · have hne : early.length ≠ left := fun heq => hend (hcourse.exhausted_iff.2 heq)
    omega

/-- The log of a run: everything the loop does, in order, with the answers it gets. It
    begins with rounds that settle nothing, of a look, a pass and a change of the policy
    each, and ends in one of five ways. Counts and result are read off the log.

    Without an error it is a success if the last pass satisfied the client. Otherwise a
    policy that had nothing to change makes the difference, and it counts only if some
    pass kept its budget. -/
theorem outcome_read_off_log (q : Query σ ε π) (s : PassState σ π) :
    let n := RefinementPolicy.numPasses s.policy
    let r := run q s
    ∃ (early : List (Budget × Draw)) (e : Ending ε),
      let log := logOf 0 early e
      Takes q s log r.2.2 ∧ r.2.1 = e.error ∧
      -- The schedule is used up if nothing else has ended the run.
      early.length ≤ n ∧ (e = .exhausted ↔ early.length = n) ∧
      -- The counts are those of the passes in the log.
      r.1.passes = (answers log).length ∧ r.1.passes ≤ n ∧
      r.1.completed = ((answers log).filter fun a => a.error.isNone).length ∧
      -- Without an error the last answers decide.
      (r.2.1 = none →
        (r.1.result = .success ↔ (answers log).getLast? = some ⟨true, none⟩) ∧
        (r.1.result = .noMoreRefine ↔ r.1.result ≠ .success ∧ 0 < r.1.completed ∧
          (changes log).getLast? = some false) ∧
        (r.1.result = .budgetExceeded ↔ r.1.result ≠ .success ∧ r.1.result ≠ .noMoreRefine)) := by
  intro n r
  rcases runFrom_course q n 0 {} s with ⟨early, e, hcourse⟩
  have hcourse : Course q n 0 {} s early e r := hcourse
  have hpasses : r.1.passes = (answers (logOf 0 early e)).length :=
    hcourse.passes_eq.trans (Int.zero_add _)
  refine ⟨early, e, hcourse.takes, hcourse.error_eq, hcourse.length_le, hcourse.exhausted_iff,
    hpasses, ?_, hcourse.completed_eq.trans (Int.zero_add _), fun hnone => ?_⟩
  · rw [hpasses]
    exact_mod_cast hcourse.length_answers_le
  · have herror := hcourse.error_eq.symm.trans hnone
    have hresult : r.1.result = e.result r.1.completed .success := hcourse.result_eq
    rw [answers_logOf, changes_logOf]
    cases e with
    | cancelled cause => cases herror
    | failed budget satisfied e => cases herror
    | exhausted =>
        have hresult : r.1.result = .budgetExceeded := hresult
        -- Every round was answered with a change, so the last answer is not a refusal.
        have hchanges : (early.map fun _ => true).getLast? ≠ some false := by
          intro hlast
          simpa using List.mem_of_getLast? hlast
        simp only [Ending.actions, answers, changes, List.filterMap_nil, List.append_nil, hresult]
        exact ⟨iff_of_false (by simp) (getLast?_answers_ne early),
          iff_of_false (by simp) fun h => hchanges h.2.2, by simp⟩
    | success budget =>
        have hresult : r.1.result = .success := hresult
        simp [hresult, Ending.actions, answers]
    | unchanged budget draw =>
        have hresult : r.1.result =
            if r.1.completed > 0 then .noMoreRefine else .budgetExceeded := hresult
        have hanswer : draw.answer ≠ (⟨true, none⟩ : PassAnswer ε) := fun h =>
          getLast?_answers_ne [(budget, draw)] (congrArg some h)
        by_cases hcompleted : r.1.completed > 0
        · rw [if_pos hcompleted] at hresult
          simp [hresult, hcompleted, hanswer, Ending.actions, answers, changes]
        · rw [if_neg hcompleted] at hresult
          simp [hresult, hcompleted, hanswer, Ending.actions, answers, changes]

end Refine

end CallAtlas
