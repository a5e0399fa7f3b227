import CallAtlas.Pattern.Basic

/-!
# Searching with a Pattern

A pattern that starts at a place of a text may end at several places. The ends
are computed as a set, so that no choice has to be taken back: a sequence starts
its second part at every end of its first, and a repetition collects ends until
no new one turns up, which happens after at most as many rounds as the text has
places. A pattern is found in a text if it has an end for some start.

## Main definitions

* `Pattern.ends`: The places at which a pattern that starts at a place may end.
* `Pattern.occursIn`: Whether a pattern is found in a text.
-/

namespace CallAtlas

namespace Pattern

/-- Whether a code point belongs to a word. -/
def isWordCode (c : Nat) : Bool :=
  (48 ≤ c && c ≤ 57) || (65 ≤ c && c ≤ 90) || c == 95 || (97 ≤ c && c ≤ 122)

/-- Whether a condition holds at a place of a text. -/
def holdsAt (a : Anchor) (text : Array Nat) (i : Nat) : Bool :=
  let before := if i = 0 then none else text[i - 1]?
  let after := text[i]?
  match a with
  | .beginText => i == 0
  | .endText => i == text.size
  | .beginLine => i == 0 || before == some 10
  | .endLine => i == text.size || after == some 10
  | .wordBoundary => before.any isWordCode != after.any isWordCode
  | .noWordBoundary => before.any isWordCode == after.any isWordCode

/-- Adds places to a list that repeats none. -/
def merge (seen new : List Nat) : List Nat :=
  new.foldl (fun seen i => if seen.contains i then seen else seen ++ [i]) seen

/-- The ends of a step from every place of a list. -/
def stepAll (step : Nat → List Nat) (places : List Nat) : List Nat :=
  places.foldl (fun seen i => merge seen (step i)) []

/-- The places that some number of steps leads to, found in at most `rounds`
    rounds. -/
def closure (step : Nat → List Nat) : (rounds : Nat) → List Nat → List Nat
  | 0, seen => seen
  | rounds + 1, seen =>
    let next := merge seen (stepAll step seen)
    if next.length = seen.length then seen else closure step rounds next

/-- The places that exactly `n` steps lead to. -/
def exactly (step : Nat → List Nat) : Nat → List Nat → List Nat
  | 0, places => places
  | n + 1, places => exactly step n (stepAll step places)

/-- The places that at most `n` steps lead to. -/
def atMost (step : Nat → List Nat) : Nat → List Nat → List Nat
  | 0, seen => seen
  | n + 1, seen =>
    let next := merge seen (stepAll step seen)
    if next.length = seen.length then seen else atMost step n next

/-- The places at which a pattern that starts at a place may end. -/
def ends (text : Array Nat) : Pattern → Nat → List Nat
  | empty, i => [i]
  | literal s, i | set s, i =>
    match text[i]? with
    | some c => if s.test c then [i + 1] else []
    | none => []
  | anchor a, i => if holdsAt a text i then [i] else []
  | seq p q, i => stepAll (ends text q) (ends text p i)
  | alt p q, i => merge (ends text p i) (ends text q i)
  | star p, i => closure (ends text p) (text.size + 1) [i]
  | plus p, i => closure (ends text p) (text.size + 1) (ends text p i)
  | opt p, i => merge [i] (ends text p i)
  | counted p least none, i =>
    closure (ends text p) (text.size + 1) (exactly (ends text p) least [i])
  | counted p least (some most), i =>
    atMost (ends text p) (most - least) (exactly (ends text p) least [i])
  | group p, i => ends text p i

/-- Whether a pattern is found somewhere in a text. -/
def occursIn (p : Pattern) (s : String) : Bool :=
  let text := (s.toList.map Char.toNat).toArray
  (List.range (text.size + 1)).any fun i => !(ends text p i).isEmpty

end Pattern

end CallAtlas
