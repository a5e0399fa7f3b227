import CallAtlas.Json.Basic
import CallAtlas.Text.CaseOrbit

/-!
# Reading Records from JSON

How the members of an object fill a record. A member belongs to the field of its
name, or else to the field whose name differs from its own in case alone; members
that belong to no field are passed over. A `null` leaves a field as it was, except
that it empties a list. Anything else has to be of the field's kind, and an integer
has to be spelled as one and fit into 64 bits.

A member that comes twice fills its field twice. The items of a list that was
filled before are filled again where they stand.

## Main definitions

* `Json.fillInt`, `Json.fillString`, `Json.fillList`: Filling single fields.
* `Json.fillRecord`: Filling a record.
-/

namespace CallAtlas

namespace Json

/-- Fills an integer field. -/
def fillInt (old : Int) (j : Json) : Option Int :=
  if j.isNull then some old else j.int?

/-- Fills a text field. -/
def fillString (old : String) (j : Json) : Option String :=
  if j.isNull then some old else j.str?

/-- Fills the items of a list, the first ones over those of an older list. -/
def fillItems {α : Type} (fill : α → Json → Option α) (fresh : α) :
    List α → List Json → Option (List α)
  | _, [] => some []
  | old, j :: js => do
    let a ← fill (old.head?.getD fresh) j
    let rest ← fillItems fill fresh old.tail js
    return a :: rest

/-- Fills a list field. -/
def fillList {α : Type} (fill : α → Json → Option α) (fresh : α) (old : List α) (j : Json) :
    Option (List α) :=
  match j with
  | null => some []
  | arr js => fillItems fill fresh old js
  | _ => none

/-- A name with every letter replaced by the one that stands for all its forms. -/
def foldedName (s : String) : List Nat := s.toList.map fun c => Text.CaseOrbit.fold c.toNat

/-- The field to which a member of a given name belongs. -/
def fieldFor (fields : List String) (name : String) : Option String :=
  if fields.contains name then some name
  else fields.find? fun f => foldedName f == foldedName name

/-- Fills a record member by member. -/
def fillRecord {ρ : Type} (fields : List String) (fill : ρ → String → Json → Option ρ)
    (old : ρ) (j : Json) : Option ρ :=
  match j with
  | null => some old
  | obj ms => ms.foldlM (fun r m =>
      match fieldFor fields m.1 with
      | some f => fill r f m.2
      | none => some r) old
  | _ => none

end Json

end CallAtlas
