import CallAtlas.Closure.Hierarchy
import CallAtlas.Json.Member

/-!
# Described Hierarchies

A hierarchy written down as a JSON document: its methods with their call sites, what
overrides what, the initializers of its classes, and the function objects that sites
make. It answers from the document and remembers nothing.

## Main definitions

* `CallSite.ofJson`: The call site that a document describes.
* `Hierarchy.ofJson`: The hierarchy that a document describes.
-/

namespace CallAtlas

/-- The reference that a document gives: class, name and signature. -/
def MethodRef.ofJson (j : Json) : MethodRef :=
  ⟨(j.item 0).asText, (j.item 1).asText, (j.item 2).asText⟩

/-- The call site that a document gives: position, kind by name or code, and the parts
    of the target. -/
def CallSite.ofJson (j : Json) : CallSite :=
  let kind := match j.item 1 with
    | .str s => (Dispatch.ofName? s).getD .static
    | k => Dispatch.ofCode k.asNat.toUInt8
  { pc := (j.item 0).asInt, kind
    target := ⟨(j.item 2).asText, (j.item 3).asText, (j.item 4).asText⟩ }

/-- A method of a described hierarchy. -/
structure DescribedMethod where
  ref : MethodRef
  isAbstract : Bool
  loader : Loader
  calls : List CallSite

/-- The method that a document gives. -/
def DescribedMethod.ofJson (j : Json) : DescribedMethod :=
  { ref := .ofJson (j.field "ref"), isAbstract := j.flagAt "abstract"
    loader := if j.textAt "loader" = "" then .application else .ofName (j.textAt "loader")
    calls := (j.listAt "calls").map CallSite.ofJson }

/-- The hierarchy that a document describes. Of two methods with one reference the first
    counts, and what is no method is concrete and nobody's own. -/
def Hierarchy.ofJson (j : Json) : Hierarchy Unit :=
  let methods := (j.listAt "methods").map DescribedMethod.ofJson
  let method? (r : MethodRef) : Option DescribedMethod := methods.find? (·.ref = r)
  let overrides := (j.listAt "overrides").map fun o =>
    (MethodRef.ofJson (o.field "target"), (o.listAt "impls").map MethodRef.ofJson)
  let initializers := (j.field "clinits").members.map fun m => (m.1, MethodRef.ofJson m.2)
  let wrappers := (j.listAt "wrappers").map fun o =>
    (MethodRef.ofJson (o.field "target"), MethodRef.ofJson (o.field "impl"))
  { bound := methods.length + (overrides.map fun o => o.2.length).foldr (· + ·) 0 + initializers.length +
      wrappers.length
    single := fun r => return (method? r).map fun m => .named m.ref
    overrides := fun r => return (overrides.filter (·.1 = r)).flatMap fun o => o.2.map .named
    isAbstract := fun u => (method? u.ref).any (·.isAbstract)
    loader := fun u => ((method? u.ref).map (·.loader)).getD .primordial
    initializer := fun u =>
      return (initializers.reverse.find? (·.1 = u.ref.owner)).map fun c => .named c.2
    callSites := fun n => return ((method? n.unit.ref).map (·.calls)).getD []
    wrapper := fun _ s => return (wrappers.find? (·.1 = s.target)).map fun o => .named o.2 }

end CallAtlas
