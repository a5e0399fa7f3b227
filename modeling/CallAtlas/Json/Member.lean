import CallAtlas.Json.Basic

/-!
# Members of Objects

Members of an object by name, where a member that is missing, or of another kind, is
as good as an empty one.

## Main definitions

* `Json.textAt`, `Json.intAt`, `Json.flagAt`, `Json.listAt`: Members of a kind.
* `Json.textAt?`, `Json.natAt?`: Members of a kind that may be missing.
* `Json.item`: An item of a list.
-/

namespace CallAtlas

namespace Json

/-- A value as a text. -/
def asText (j : Json) : String := j.str?.getD ""

/-- A value as an integer. -/
def asInt (j : Json) : Int := j.int?.getD 0

/-- A value as a natural number. -/
def asNat (j : Json) : Nat := j.asInt.toNat

/-- A member that is a text, if there is one. -/
def textAt? (j : Json) (name : String) : Option String := (j.field name).str?

/-- A member that is a natural number, if there is one. -/
def natAt? (j : Json) (name : String) : Option Nat := (j.field name).int?.map Int.toNat

/-- A member that is a text. -/
def textAt (j : Json) (name : String) : String := (j.field name).asText

/-- A member that is an integer. -/
def intAt (j : Json) (name : String) : Int := (j.field name).asInt

/-- A member that is a natural number. -/
def natAt (j : Json) (name : String) : Nat := (j.field name).asNat

/-- A member that is a truth value. -/
def flagAt (j : Json) (name : String) : Bool := (j.field name).isTrue

/-- A member that is a list. -/
def listAt (j : Json) (name : String) : List Json := (j.field name).items

/-- A member that is a list of texts. -/
def textsAt (j : Json) (name : String) : List String := (j.listAt name).map asText

/-- A member that is a list of integers. -/
def intsAt (j : Json) (name : String) : List Int := (j.listAt name).map asInt

/-- An item of a list. -/
def item (j : Json) (i : Nat) : Json := (j.items[i]?).getD null

end Json

end CallAtlas
