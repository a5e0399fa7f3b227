import CallAtlas.Json.Member
import CallAtlas.Refine.Field

/-!
# Described Types

A hierarchy of types written down as a JSON document: the types that are loaded and
the direct supertypes of each. A type may be assigned to all that its supertypes lead
to; a strict hierarchy knows nothing of types that are not loaded.

## Main definitions

* `supertypesUpTo`: The types that some types lead to.
* `TypeHierarchy.ofJson`: The hierarchy that a document describes.
-/

namespace CallAtlas

/-- Adds the direct supertypes of a type to those seen. -/
def addSupertypes (direct : List (String × List String)) (seen : List String) (type : String) :
    List String :=
  (((direct.find? (·.1 = type)).map Prod.snd).getD []).foldl
    (fun seen t => if seen.contains t then seen else seen ++ [t]) seen

/-- The types that some types lead to in at most `n` rounds. -/
def supertypesUpTo (direct : List (String × List String)) : (n : Nat) → List String → List String
  | 0, seen => seen
  | n + 1, seen =>
    let next := seen.foldl (addSupertypes direct) seen
    if next.length = seen.length then seen else supertypesUpTo direct n next

/-- The hierarchy that a document describes. Each round but the last finds a new type. -/
def TypeHierarchy.ofJson (j : Json) : TypeHierarchy :=
  let loaded := j.textsAt "loaded"
  let direct := (j.field "sub").members.map fun m => (m.1, m.2.items.map Json.asText)
  let size := (direct.map fun e => e.2.length + 1).foldr (· + ·) 1
  let strict := j.flagAt "strict"
  { isLoaded := loaded.contains
    isAssignable := fun a b =>
      (supertypesUpTo direct size [a]).contains b &&
        (!strict || (loaded.contains a && loaded.contains b)) }

end CallAtlas
