/-!
# Searching Texts

Finding one list inside another: at its front, and at the first place where it
occurs.

## Main definitions

* `afterFront?`: What follows a list at the front of another.
* `afterFirst?`: What follows the first occurrence of a list in another.
* `pieces`: The pieces between the occurrences of an element.
-/

namespace CallAtlas

namespace Text

variable {α : Type} [DecidableEq α]

/-- What follows a list at the front of another. -/
def afterFront? : List α → List α → Option (List α)
  | [], ys => some ys
  | _ :: _, [] => none
  | x :: xs, y :: ys => if x = y then afterFront? xs ys else none

/-- What follows the first occurrence of a list in another. -/
def afterFirst? (needle : List α) : List α → Option (List α)
  | [] => afterFront? needle []
  | y :: ys => (afterFront? needle (y :: ys)).orElse fun _ => afterFirst? needle ys

/-- The part before the first occurrence of a list in another, all of it if there is
    none. -/
def beforeFirst (needle : List α) : List α → List α
  | [] => []
  | y :: ys => if (afterFront? needle (y :: ys)).isSome then [] else y :: beforeFirst needle ys

/-- The pieces between the occurrences of an element, of which there is one more
    than occurrences. -/
def pieces (sep : α) : List α → List (List α)
  | [] => [[]]
  | x :: xs =>
    if x = sep then [] :: pieces sep xs
    else
      match pieces sep xs with
      | [] => [[x]]
      | p :: ps => (x :: p) :: ps

theorem afterFront?_eq_some_iff {xs ys zs : List α} :
    afterFront? xs ys = some zs ↔ ys = xs ++ zs := by
  induction xs generalizing ys with
  | nil => simp [afterFront?, eq_comm]
  | cons x xs ih =>
    cases ys with
    | nil => simp [afterFront?]
    | cons y ys =>
      by_cases h : x = y
      · simp [afterFront?, h, ih]
      · simp [afterFront?, h, Ne.symm h]

end Text

end CallAtlas
