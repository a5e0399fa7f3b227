import CallAtlas.Lifetime
import CallAtlas.Refine.Budget
import CallAtlas.Refine.Policy

/-!
# The Pass Loop

A query is run once for each pass of a policy, with a budget of its own each
time, until a pass satisfies it, the policy has nothing left to change, or the
schedule ends. A pass that runs out of budget is not a failure: the policy is
prepared for the next pass as after any other. Any other error of a query ends
the loop. Only a pass without an error can satisfy the client, whatever it says.

The loop looks whether its caller still waits once before each pass. A query may
look too, so it gets the lifetime and gives back what is left of it. Query and
loop work on one policy.

## Main definitions

* `PassState`: What loop and query hand to each other.
* `PassError`: How a pass can fail.
* `PassAnswer`: What a pass answers.
* `LoopResult`: How the loop ended.
* `Outcome`: The result with the passes counted.
* `Refine.run`: The loop.
-/

namespace CallAtlas

/-- What loop and query hand to each other: the policy, how long the caller
    waits, and what the query keeps for itself. -/
structure PassState (σ : Type) (π : Type := Policy) where
  policy : π
  life : Lifetime
  query : σ

/-- How a pass can fail. -/
inductive PassError (ε : Type) where
  | outOfBudget
  | failed (e : ε)

/-- What a pass answers: whether the client is satisfied, and what went wrong. -/
structure PassAnswer (ε : Type) where
  satisfied : Bool
  error : Option (PassError ε) := none

/-- One pass of a query: its number and its budget go in, and its answer comes out. -/
abbrev Query (σ ε : Type) (π : Type := Policy) :=
  (pass : Nat) → Budget → PassState σ π → PassAnswer ε × PassState σ π

/-- How the loop ended. -/
inductive LoopResult where
  /-- Some pass satisfied the query. -/
  | success
  /-- A pass kept its budget, and the policy had nothing left to change. -/
  | noMoreRefine
  /-- No pass was enough within its budget. -/
  | budgetExceeded
  /-- A result without a name. -/
  | other (code : Int)
deriving DecidableEq, Inhabited

namespace LoopResult

/-- The result with a given code. -/
def ofCode (c : Int) : LoopResult :=
  if c = 0 then success
  else if c = 1 then noMoreRefine
  else if c = 2 then budgetExceeded
  else other c

/-- The printed form of a result. -/
def text : LoopResult → String
  | success => "success"
  | noMoreRefine => "no_more_refine"
  | budgetExceeded => "budget_exceeded"
  | other c => "Result(" ++ toString c ++ ")"

end LoopResult

/-- The result of the loop with the passes counted. -/
structure Outcome where
  result : LoopResult := .success
  /-- The passes started. -/
  passes : Int := 0
  /-- The passes that kept their budget. -/
  completed : Int := 0
deriving DecidableEq, Inhabited

/-- Why the loop gave no result. -/
inductive LoopError (ε : Type) where
  | cancelled (cause : EndCause)
  | query (e : ε)

namespace Refine

variable {σ ε π : Type} [RefinementPolicy π]

/-- The result of a loop that ended without an error, and `left` whether passes
    were left over. -/
def conclude (out : Outcome) (left : Bool) : Outcome :=
  { out with result := if left && out.completed > 0 then .noMoreRefine else .budgetExceeded }

/-- Runs up to `left` more passes, the first of them numbered `pass`. -/
def runFrom (q : Query σ ε π) :
    (left : Nat) → (pass : Nat) → Outcome → PassState σ π →
    Outcome × Option (LoopError ε) × PassState σ π
  | 0, _, out, s => (conclude out false, none, s)
  | left + 1, pass, out, s =>
    match s.life.poll with
    | (some cause, life) => (out, some (.cancelled cause), { s with life })
    | (none, life) =>
      let out := { out with passes := out.passes + 1 }
      let limit := RefinementPolicy.budgetForPass s.policy pass
      let (answer, s) := q pass { limit } { s with life }
      match answer.error, answer.satisfied with
      | some (.failed e), _ => (out, some (.query e), s)
      | none, true => ({ out with result := .success, completed := out.completed + 1 }, none, s)
      | none, false | some .outOfBudget, _ =>
        let completed := if answer.error.isNone then out.completed + 1 else out.completed
        let out := { out with completed }
        let (policy, changed) := RefinementPolicy.nextPass s.policy
        let s := { s with policy }
        if changed then runFrom q left (pass + 1) out s else (conclude out true, none, s)

/-- Runs a query once for each pass of the policy, until it is satisfied or
    nothing is left to try. -/
def run (q : Query σ ε π) (s : PassState σ π) : Outcome × Option (LoopError ε) × PassState σ π :=
  runFrom q (RefinementPolicy.numPasses s.policy) 0 {} s

end Refine

end CallAtlas
