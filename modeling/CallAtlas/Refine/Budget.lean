/-!
# Budgets

A pass may take a limited number of steps. Steps are counted in 64-bit words that
wrap around, as the counter of a machine does, so a budget that was overdrawn by
far enough counts as unused again.

## Main definitions

* `Budget`: The steps of one pass.
* `Budget.charge`: Records steps and says whether the limit holds.
-/

namespace CallAtlas

/-- The steps of one pass. -/
structure Budget where
  limit : Int64
  used : Int64 := 0
deriving DecidableEq, Inhabited

namespace Budget

/-- Records steps. The answer is false once more than the limit was used. -/
def charge (b : Budget) (n : Int64) : Budget × Bool :=
  let used := b.used + n
  ({ b with used }, used ≤ b.limit)

/-- What a caller is told whose pass ran out of steps. -/
def exceededMessage : String := "refine: traversal budget exceeded"

end Budget

end CallAtlas
