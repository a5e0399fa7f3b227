import CallAtlas.Node
import CallAtlas.Refine.Field
import CallAtlas.Text.Quoted

/-!
# Refinement Policies

A refinement policy decides about fields and about call sites, and says how many
passes there are and how many steps each may take. Policies are known by name.

A policy is a value. Asking for one gives a fresh one each time, and what one
query teaches it no other query sees.

The pass loop and the queries know a policy by what it answers, not by what it is
made of. `RefinementPolicy` is what they may ask; the policies that have a name are
one type that answers.

## Main definitions

* `RefinementPolicy`: What a refinement policy can be asked.
* `CallPolicy`: Which call sites are refined.
* `Policy`: A complete refinement policy.
* `Policy.nextPass`: Prepares both halves for another pass.
* `Policy.byName`: The policy with a given name.
-/

namespace CallAtlas

/-- What a refinement policy can be asked. A question may teach it something, so the
    answer comes with the policy after it. -/
class RefinementPolicy (π : Type) where
  /-- The number of passes. -/
  numPasses : π → Nat
  /-- The steps of a pass. -/
  budgetForPass : π → Nat → Int64
  /-- Whether a call site is refined. -/
  admitsSite : π → Node → CallSite → Bool × π
  /-- Whether an access of a field is refined. -/
  admitsField : TypeHierarchy → π → Field → Bool × π
  /-- Prepares for another pass, and says whether anything changed. -/
  nextPass : π → π × Bool

/-- Which call sites are refined. Neither policy ever changes. -/
inductive CallPolicy where
  | always
  | never
deriving DecidableEq, Inhabited

namespace CallPolicy

/-- Whether a call site is refined. -/
def shouldRefine (p : CallPolicy) (_caller : Node) (_site : CallSite) : Bool :=
  p = always

end CallPolicy

/-- The number of steps each pass may take. -/
abbrev Schedule := List Int64

namespace Schedule

/-- The steps of a pass; a pass that is not in the schedule has none. -/
def budgetForPass (s : Schedule) (pass : Int) : Int64 :=
  if pass < 0 then 0 else (s[pass.toNat]?).getD 0

/-- Three passes, of which the first is short. -/
def threePass : Schedule := [1000, 12000, 12000]

/-- One pass that no budget ends in practice. -/
def onePass : Schedule := [Int64.maxValue]

end Schedule

/-- A complete refinement policy. -/
structure Policy where
  fields : FieldPolicy
  calls : CallPolicy
  schedule : Schedule
deriving DecidableEq, Inhabited

/-- Why there is no policy. -/
inductive PolicyError where
  | unknownName (name : String)
  | badPattern (e : PatternError)
deriving DecidableEq

namespace Policy

/-- The names of the policies. -/
def names : List String := ["tuned", "manual", "arrays", "always", "none"]

/-- The names as a message lists them. -/
def nameList : String := "[" ++ String.intercalate " " names ++ "]"

/-- Whether a policy has a given name. -/
def isName (name : String) : Bool := names.contains name

/-- Prepares both halves for another pass, and says whether either changed. -/
def nextPass (p : Policy) : Policy × Bool :=
  let (fields, changed) := p.fields.nextPass
  ({ p with fields }, changed)

instance : RefinementPolicy Policy where
  numPasses p := p.schedule.length
  budgetForPass p pass := p.schedule.budgetForPass pass
  admitsSite p n site := (p.calls.shouldRefine n site, p)
  admitsField h p f :=
    let (refined, fields) := p.fields.decide h f
    (refined, { p with fields })
  nextPass := nextPass

/-- What the manual policy selects unless told otherwise. -/
def defaultIncludes : String := "^container/"

/-- The policy with a given name. Only the manual one looks at the patterns. -/
def byName (name includes excludes : String) : Except PolicyError Policy :=
  match name with
  | "tuned" => .ok { fields := .tuned {}, calls := .always, schedule := .threePass }
  | "manual" =>
    let parsed :=
      if includes = "" then Manual.parse defaultIncludes "" else Manual.parse includes excludes
    match parsed with
    | .ok m => .ok { fields := .manual m, calls := .always, schedule := .threePass }
    | .error e => .error (.badPattern e)
  | "arrays" => .ok { fields := .arraysOnly, calls := .always, schedule := .onePass }
  | "always" => .ok { fields := .always, calls := .always, schedule := .onePass }
  | "none" => .ok { fields := .never, calls := .never, schedule := .onePass }
  | _ => .error (.unknownName name)

end Policy

namespace PolicyError

/-- What a caller is told. -/
def message : PolicyError → String
  | unknownName n =>
    "refine: unknown policy " ++ Text.quoted n ++ " (want one of " ++ Policy.nameList ++ ")"
  | badPattern e => "refine: manual policy: " ++ e.message

end PolicyError

end CallAtlas
