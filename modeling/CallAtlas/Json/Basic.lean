import CallAtlas.Word

/-!
# JSON Values

Stored documents and program descriptions are JSON texts. A value keeps what the
text said: numbers keep their spelling, since whether one is an integer depends on
how it was written, and objects keep their members in order, also where two have
the same name.

## Main definitions

* `Json`: A JSON value.
* `Json.field`: The last member with a name.
* `Json.int?`: The integer a number spells, if it spells one.
-/

namespace CallAtlas

/-- A JSON value. -/
inductive Json where
  | null
  | bool (b : Bool)
  /-- A number by its spelling. -/
  | num (spelling : String)
  | str (s : String)
  | arr (items : List Json)
  /-- The members in order; names may repeat. -/
  | obj (members : List (String × Json))
deriving Inhabited

namespace Json

/-- The number that spells an integer. -/
def ofInt (n : Int) : Json := num (toString n)

/-- The number that spells a natural number. -/
def ofNat (n : Nat) : Json := num (toString n)

/-- The last member of an object with a given name. -/
def field? (j : Json) (name : String) : Option Json :=
  match j with
  | obj ms => (ms.reverse.find? fun m => m.1 == name).map Prod.snd
  | _ => none

/-- The member with a given name; nothing if there is none. -/
def field (j : Json) (name : String) : Json := (j.field? name).getD null

/-- The value of decimal digits. -/
def digits? (cs : List Char) : Option Nat :=
  if cs.isEmpty || !cs.all Char.isDigit then none
  else some (cs.foldl (fun n c => 10 * n + (c.toNat - 48)) 0)

/-- The integer that a spelling stands for: a sign and digits and nothing else. -/
def intOfSpelling (s : String) : Option Int :=
  match s.toList with
  | '-' :: cs => (digits? cs).map fun n => -(n : Int)
  | cs => (digits? cs).map fun n => (n : Int)

/-- The integer that a number spells, if it fits into a 64-bit word. -/
def int? : Json → Option Int
  | num s =>
    match intOfSpelling s with
    | some n => if Word.fits n then some n else none
    | none => none
  | _ => none

/-- The text of a string. -/
def str? : Json → Option String
  | str s => some s
  | _ => none

/-- The items of an array; none of anything else. -/
def items : Json → List Json
  | arr l => l
  | _ => []

/-- The members of an object; none of anything else. -/
def members : Json → List (String × Json)
  | obj l => l
  | _ => []

/-- Whether the value is `null`. -/
def isNull : Json → Bool
  | null => true
  | _ => false

/-- Whether the value is `true`. -/
def isTrue : Json → Bool
  | bool true => true
  | _ => false

end Json

end CallAtlas
