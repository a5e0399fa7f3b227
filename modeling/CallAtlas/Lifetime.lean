/-!
# Lifetimes

A caller may end an analysis that is still running. The analysis learns of it
only by looking, so when it ends depends on how often it looks, and each
analysis says where it does. A lifetime is therefore a count of the looks that
will still find the caller waiting, together with the reason that every later
look will find.

## Main definitions

* `EndCause`: Why a caller stopped waiting.
* `Lifetime`: How long a caller waits, counted in looks.
* `Lifetime.poll`: One look.
-/

namespace CallAtlas

/-- Why a caller stopped waiting. -/
inductive EndCause where
  | canceled
  | deadlineExceeded
deriving DecidableEq, Inhabited

namespace EndCause

/-- The reason on its own. -/
def message : EndCause → String
  | canceled => "context canceled"
  | deadlineExceeded => "context deadline exceeded"

/-- The reason as an analysis reports it that was cut short. -/
def analysisMessage (c : EndCause) : String :=
  "callgraph: analysis cancelled: " ++ c.message

end EndCause

/-- How long a caller waits, counted in looks. -/
structure Lifetime where
  /-- The looks that still find the caller waiting; without a bound the caller
      waits for ever. -/
  polls : Option Nat := none
  /-- What later looks find. -/
  cause : EndCause := .canceled
deriving DecidableEq, Inhabited

namespace Lifetime

/-- The caller that waits for ever. -/
def unbounded : Lifetime := {}

/-- One look: what it finds, and the lifetime after it. -/
def poll (l : Lifetime) : Option EndCause × Lifetime :=
  match l.polls with
  | none => (none, l)
  | some 0 => (some l.cause, l)
  | some (k + 1) => (none, { l with polls := some k })

theorem poll_of_unbounded {l : Lifetime} (h : l.polls = none) : l.poll = (none, l) := by
  rw [poll, h]

end Lifetime

end CallAtlas
