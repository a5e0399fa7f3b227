import CallAtlas.Pattern.Match
import CallAtlas.Pattern.Parse

/-!
# Field Policies

A demand-driven analysis refines some field accesses and approximates the rest.
A field policy decides which: arrays alone, everything, nothing, the types that a
pattern selects, or a set of types that grows from pass to pass.

The growing policy remembers the first type it turned down since it last grew.
Between passes it takes that type into its set, and from then on it refines every
field whose type is related to it by assignment in either direction. Nested types
count as the type around them, if that one is loaded.

## Main definitions

* `Field`: A field by its declaring type.
* `TypeHierarchy`: What the growing policy asks of a program's types.
* `Manual`: The policy of patterns, with its history.
* `Widening`: The state of the growing policy.
* `FieldPolicy`: The policies.
* `FieldPolicy.shouldRefine`, `FieldPolicy.nextPass`: What a policy does.
-/

namespace CallAtlas

/-- An instance field, identified by its declaring type. -/
structure Field where
  declaringType : String
  name : String
deriving DecidableEq, Inhabited

namespace Field

/-- The printed form of a field. -/
def text (f : Field) : String := f.declaringType ++ "." ++ f.name

/-- The field that stands for the elements of all arrays. -/
def arrayContents : Field := ⟨"[]", "contents"⟩

/-- Whether a field stands for the elements of all arrays. -/
def isArrayContents (f : Field) : Bool := f = arrayContents

end Field

/-- What the growing policy asks of a program's types. -/
structure TypeHierarchy where
  isLoaded : String → Bool
  /-- Whether a value of the first type may be stored in a variable of the
      second. -/
  isAssignable : String → String → Bool

/-- The policy that refines the fields of the types that one pattern selects and
    another does not reject, with all its decisions so far. -/
structure Manual where
  includes : Pattern
  excludes : Option Pattern
  history : List (Field × Bool) := []
deriving DecidableEq, Inhabited

namespace Manual

/-- Reads the patterns of the policy. Without a second one nothing is rejected. -/
def parse (includes excludes : String) : Except PatternError Manual := do
  let i ← Pattern.parse includes
  if excludes = "" then return { includes := i, excludes := none }
  else
    let e ← Pattern.parse excludes
    return { includes := i, excludes := some e }

/-- Whether the patterns select a type. -/
def selects (m : Manual) (type : String) : Bool :=
  m.includes.occursIn type && !m.excludes.any (·.occursIn type)

end Manual

/-- The state of the growing policy: its types in the order they were taken in,
    and the first type turned down since it last grew. -/
structure Widening where
  types : List String := []
  skipped : Option String := none
deriving DecidableEq, Inhabited

namespace Widening

/-- Remembers a type that was turned down, unless one is remembered. -/
def skip (w : Widening) (type : String) : Widening :=
  match w.skipped with
  | some _ => w
  | none => { w with skipped := some type }

/-- Takes the remembered type in, and says whether the set grew. -/
def widen (w : Widening) : Widening × Bool :=
  match w.skipped with
  | none => (w, false)
  | some t =>
    if t ∈ w.types then ({ types := w.types }, false)
    else ({ types := w.types ++ [t] }, true)

/-- The type that counts for a nested type: the one around it, if that is
    loaded. -/
def outermost (h : TypeHierarchy) (type : String) : String :=
  let outer := String.ofList (type.toList.takeWhile (· != '$'))
  if type.toList.contains '$' && h.isLoaded outer then outer else type

/-- Whether a type is related to one of the set. -/
def admits (h : TypeHierarchy) (w : Widening) (type : String) : Bool :=
  w.types.any fun t => h.isAssignable type t || h.isAssignable t type

/-- The answer for a field, and the state after it. -/
def decide (h : TypeHierarchy) (w : Widening) (f : Field) : Bool × Widening :=
  if f.isArrayContents then (true, w)
  else
    let type := outermost h f.declaringType
    if w.admits h type then (true, w) else (false, w.skip type)

end Widening

/-- Which field accesses are refined. -/
inductive FieldPolicy where
  | arraysOnly
  | always
  | never
  | manual (m : Manual)
  | tuned (w : Widening)
deriving DecidableEq, Inhabited

/-- A field policy was asked about no field. -/
inductive FieldFault where
  | noField
deriving DecidableEq

namespace FieldFault

/-- What a caller is told. -/
def message : FieldFault → String
  | noField => "refine: nil field"

end FieldFault

namespace FieldPolicy

/-- The answer for a field, and the policy after it. -/
def decide (h : TypeHierarchy) (p : FieldPolicy) (f : Field) : Bool × FieldPolicy :=
  match p with
  | arraysOnly => (f.isArrayContents, p)
  | always => (true, p)
  | never => (false, p)
  | manual m =>
    let refined := m.selects f.declaringType
    (refined, manual { m with history := m.history ++ [(f, refined)] })
  | tuned w =>
    let (refined, w) := w.decide h f
    (refined, tuned w)

/-- Whether a field access is refined. There has to be a field. -/
def shouldRefine (h : TypeHierarchy) (p : FieldPolicy) (f : Option Field) :
    Except FieldFault (Bool × FieldPolicy) :=
  match f with
  | none => .error .noField
  | some f => .ok (p.decide h f)

/-- Prepares for another pass, and says whether anything changed. -/
def nextPass : FieldPolicy → FieldPolicy × Bool
  | tuned w =>
    let (w, grew) := w.widen
    (tuned w, grew)
  | p => (p, false)

end FieldPolicy

end CallAtlas
