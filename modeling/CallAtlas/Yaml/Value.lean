import CallAtlas.Text.Base64
import CallAtlas.Yaml.Node
import CallAtlas.Yaml.Number

/-!
# The Value of a Scalar

A plain scalar stands for what it looks like: nothing, a truth value, a number, a
date, or else its text. A tag says what it has to stand for. Tags of other kinds
leave the text as it is.

## Main definitions

* `Value`: What a scalar stands for.
* `Value.ofScalar`: The value of a scalar with a tag.
* `Value.toInt?`, `Value.toBool?`: The value as a setting of a kind.
-/

namespace CallAtlas

namespace Yaml

/-- A number in double precision, as far as its whole part. -/
inductive Approximate where
  | notANumber
  | infinite (negative : Bool)
  | finite (whole : Int)
deriving DecidableEq, Inhabited

/-- What a scalar stands for. -/
inductive Value where
  | null
  | bool (b : Bool)
  | int (n : Int)
  | real (x : Approximate)
  | date
  | text (s : String)
deriving DecidableEq, Inhabited

namespace Value

/-- The tag of a value. -/
def tag : Value → String
  | null => "!!null"
  | bool _ => "!!bool"
  | int _ => "!!int"
  | real _ => "!!float"
  | date => "!!timestamp"
  | text _ => stringTag

/-- The values that are spelled out. -/
def spelled? (s : String) : Option Value :=
  if ["", "~", "null", "Null", "NULL"].contains s then some null
  else if ["true", "True", "TRUE"].contains s then some (bool true)
  else if ["false", "False", "FALSE"].contains s then some (bool false)
  else if [".nan", ".NaN", ".NAN"].contains s then some (real .notANumber)
  else if [".inf", ".Inf", ".INF", "+.inf", "+.Inf", "+.INF"].contains s then
    some (real (.infinite false))
  else if ["-.inf", "-.Inf", "-.INF"].contains s then some (real (.infinite true))
  else none

/-- A decimal number as a value, unless it is out of range. -/
def decimal? (cs : List Char) : Option Value :=
  ((Decimal.ofChars? cs).bind Decimal.wholePart?).map fun n => real (.finite n)

/-- Whether every underscore stands between two digits. -/
def isWellSeparated : (afterDigit : Bool) → List Char → Bool
  | _, [] => true
  | true, '_' :: c :: cs => c.isDigit && isWellSeparated true cs
  | _, '_' :: _ => false
  | _, c :: cs => isWellSeparated c.isDigit cs

/-- The number of days of a month. -/
def monthDays (year month : Nat) : Nat :=
  if month = 2 then
    if year % 4 = 0 && (year % 100 ≠ 0 || year % 400 = 0) then 29 else 28
  else if month = 4 || month = 6 || month = 9 || month = 11 then 30 else 31

/-- A number of one or two digits and what follows. -/
def shortNumber? (cs : List Char) : Option (Nat × List Char) :=
  match cs with
  | a :: b :: rest =>
    if a.isDigit && b.isDigit then some ((a.toNat - 48) * 10 + (b.toNat - 48), rest)
    else if a.isDigit then some (a.toNat - 48, b :: rest)
    else none
  | [a] => if a.isDigit then some (a.toNat - 48, []) else none
  | [] => none

/-- What follows a character. -/
def after? (c : Char) : List Char → Option (List Char)
  | x :: xs => if x = c then some xs else none
  | [] => none

/-- What follows a time of day. -/
def afterTime? (cs : List Char) : Option (List Char) := do
  let (hour, cs) ← shortNumber? cs
  let cs ← after? ':' cs
  let (minute, cs) ← shortNumber? cs
  let cs ← after? ':' cs
  let (second, cs) ← shortNumber? cs
  if hour ≥ 24 || minute ≥ 60 || second ≥ 60 then none
  else
    match cs with
    | '.' :: d :: more | ',' :: d :: more =>
      if d.isDigit then some (more.dropWhile Char.isDigit) else some cs
    | _ => some cs

/-- Whether a text is the offset of a time zone. -/
def isZone : List Char → Bool
  | ['Z'] => true
  | [s, a, b, ':', c, d] =>
    (s = '+' || s = '-') && [a, b, c, d].all Char.isDigit &&
      (a.toNat - 48) * 10 + (b.toNat - 48) ≤ 24 && (c.toNat - 48) * 10 + (d.toNat - 48) ≤ 60
  | _ => false

/-- Whether a text is a date, with or without a time of day. -/
def isDate (cs : List Char) : Bool :=
  let parts : Option (Nat × Nat × Nat × List Char) := do
    let year := cs.takeWhile Char.isDigit
    if year.length ≠ 4 then none
    else
      let cs ← after? '-' (cs.drop 4)
      let (month, cs) ← shortNumber? cs
      let cs ← after? '-' cs
      let (day, cs) ← shortNumber? cs
      some ((digits? 10 year).getD 0, month, day, cs)
  match parts with
  | none => false
  | some (year, month, day, rest) =>
    1 ≤ month && month ≤ 12 && 1 ≤ day && day ≤ monthDays year month &&
      match rest with
      | [] => true
      | 'T' :: time | 't' :: time => (afterTime? time).any isZone
      | ' ' :: time => (afterTime? time).any List.isEmpty
      | _ => false

/-- The value of a scalar that begins like a number. -/
def numeric (mayBeDate : Bool) (s : String) : Value :=
  let cs := s.toList
  let plain := cs.filter (· ≠ '_')
  if mayBeDate && isDate cs then date
  else
    match wholeNumber? plain with
    | some n => int n
    | none =>
      match decimal? plain with
      | some v => v
      | none =>
        match oddNumber? plain with
        | some n => int n
        | none => text s

/-- The value that a scalar looks like. -/
def ofLook (mayBeDate : Bool) (s : String) : Value :=
  match spelled? s with
  | some v => v
  | none =>
    match s.toList with
    | '.' :: cs =>
      if isWellSeparated false cs then (decimal? ('.' :: cs.filter (· ≠ '_'))).getD (text s)
      else text s
    | c :: _ => if c.isDigit || c = '+' || c = '-' then numeric mayBeDate s else text s
    | [] => text s

/-- The tags that say what a scalar has to look like. -/
def lookTags : List String := ["!!bool", "!!int", "!!float", "!!null", "!!timestamp"]

/-- The value of a scalar with a tag. A whole number may have the tag of decimal
    numbers. -/
def ofScalar (givenTag s : String) : Except Problem Value :=
  if givenTag = "" then .ok (ofLook true s)
  else if givenTag = "!!binary" then
    match Text.ofBase64? s with
    | some bs => .ok (text (Text.ofOctets bs))
    | none => .error .wrongKind
  else if lookTags.contains givenTag then
    let v := ofLook (givenTag = "!!timestamp") s
    if v.tag = givenTag then .ok v
    else
      match givenTag, v with
      | "!!float", int n =>
        if Word.fits n then .ok (real (.finite (n.sign * nearestWhole n.natAbs 1)))
        else .error .wrongKind
      | _, _ => .error .wrongKind
  else .ok (text s)

/-- The value as a whole number of 64 bits. Of a decimal number it is the whole part,
    and one that is too small becomes the least number. -/
def toInt? : Value → Option Int
  | int n => if Word.fits n then some n else none
  | real (.finite n) =>
    if n ≤ Word.bound then some (if Word.fits n then n else -Word.bound) else none
  | real (.infinite true) => some (-Word.bound)
  | _ => none

/-- The value as a truth value. Words for yes and no count as well. -/
def toBool? : Value → Option Bool
  | bool b => some b
  | text s =>
    if ["y", "Y", "yes", "Yes", "YES", "on", "On", "ON"].contains s then some true
    else if ["n", "N", "no", "No", "NO", "off", "Off", "OFF"].contains s then some false
    else none
  | _ => none

end Value

end Yaml

end CallAtlas
