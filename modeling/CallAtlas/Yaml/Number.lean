import CallAtlas.Text.Search
import CallAtlas.Word

/-!
# Numbers in Documents

Whole numbers in several bases, and decimal numbers as far as settings need them:
the whole part of the nearest number in double precision.

## Main definitions

* `wholeNumber?`: A whole number as it is written.
* `Decimal`: A decimal number as it is written.
* `Decimal.wholePart?`: The whole part of the nearest number in double precision.
-/

namespace CallAtlas

namespace Yaml

/-- The value of a digit in any base up to sixteen. -/
def digitValue? (base : Nat) (c : Char) : Option Nat :=
  let v :=
    if '0' ≤ c && c ≤ '9' then c.toNat - 48
    else if 'a' ≤ c && c ≤ 'f' then c.toNat - 87
    else if 'A' ≤ c && c ≤ 'F' then c.toNat - 55
    else 16
  if v < base then some v else none

/-- The number that digits write. No digits write zero. -/
def digits? (base : Nat) (cs : List Char) : Option Nat :=
  cs.foldl (fun n c => n.bind fun n => (digitValue? base c).map fun d => n * base + d) (some 0)

/-- The base that a letter after a leading zero stands for. -/
def baseOfLetter? (c : Char) : Option Nat :=
  if c = 'b' || c = 'B' then some 2
  else if c = 'o' || c = 'O' then some 8
  else if c = 'x' || c = 'X' then some 16
  else none

/-- The size of a number whose base shows in how it begins: a zero and a letter, a zero
    alone for base eight, and else base ten. -/
def magnitude? : List Char → Option Nat
  | [] => none
  | '0' :: c :: d :: cs =>
    match baseOfLetter? c with
    | some base => digits? base (d :: cs)
    | none => digits? 8 (c :: d :: cs)
  | '0' :: cs => digits? 8 cs
  | cs => digits? 10 cs

/-- The sign of a number, if it has one, and the rest. -/
def signed : List Char → Option Bool × List Char
  | '+' :: cs => (some false, cs)
  | '-' :: cs => (some true, cs)
  | cs => (none, cs)

/-- A number with a sign. -/
def applySign (sign : Option Bool) (n : Nat) : Int := if sign = some true then -n else n

/-- A whole number in a known base, with an optional sign. -/
def basedNumber? (base : Nat) (cs : List Char) : Option Int :=
  match signed cs with
  | (_, []) => none
  | (sign, ds) => (digits? base ds).map (applySign sign)

/-- A whole number as it is written: one that fits into 64 bits, with a sign or, if none
    is written, without. -/
def wholeNumber? (cs : List Char) : Option Int :=
  let (sign, ds) := signed cs
  (magnitude? ds).bind fun n =>
    if Word.fits (applySign sign n) || (sign.isNone && n < 2 * Word.bound) then
      some (applySign sign n)
    else none

/-- A whole number whose base stands in front of its sign. -/
def oddNumber? (cs : List Char) : Option Int :=
  let n := match cs with
    | '0' :: 'b' :: ds => basedNumber? 2 ds
    | '0' :: 'o' :: ds => basedNumber? 8 ds
    | _ => none
  n.bind fun n => if Word.fits n then some n else none

/-- A decimal number as it is written: its digits, and the power of ten by which they
    count. -/
structure Decimal where
  negative : Bool
  digits : List Char
  power : Int
deriving DecidableEq, Inhabited

/-- Reads the exponent of a decimal number. -/
def exponent? : List Char → Option Int
  | [] => some 0
  | c :: cs => if c = 'e' || c = 'E' then basedNumber? 10 cs else none

/-- Reads a decimal number: digits with a point somewhere, or at the front if digits
    follow, and an exponent. -/
def Decimal.ofChars? (cs : List Char) : Option Decimal :=
  let (sign, cs) := signed cs
  let whole := cs.takeWhile Char.isDigit
  let rest := cs.dropWhile Char.isDigit
  let part := match rest with
    | '.' :: more => (more.takeWhile Char.isDigit, more.dropWhile Char.isDigit)
    | more => ([], more)
  if whole.isEmpty && part.1.isEmpty then none
  else (exponent? part.2).map fun e =>
    { negative := sign = some true, digits := whole ++ part.1, power := e - part.1.length }

/-- Rounds a quotient to the nearest whole number, a half to the even one. -/
def roundDiv (num den : Nat) : Nat :=
  let q := num / den
  let r := num % den
  if 2 * r < den || (2 * r = den && q % 2 = 0) then q else q + 1

/-- The whole part of the number in double precision that is nearest to a quotient. -/
def nearestWhole (num den : Nat) : Nat :=
  if 2 * num < den then 0
  else
    let whole := num / den
    let bits := if whole = 0 then 0 else whole.log2 + 1
    if bits ≤ 53 then roundDiv (num * Nat.pow 2 (53 - bits)) den / Nat.pow 2 (53 - bits)
    else roundDiv num (den * Nat.pow 2 (bits - 53)) * Nat.pow 2 (bits - 53)

/-- The whole part of the nearest number in double precision, unless that is out of
    range. -/
def Decimal.wholePart? (d : Decimal) : Option Int :=
  let significant := d.digits.dropWhile (· = '0')
  let n := (digits? 10 significant).getD 0
  let size : Int := significant.length + d.power
  if n = 0 || size < -1 then some 0
  else if size > 310 then none
  else
    let whole :=
      if d.power ≥ 0 then nearestWhole (n * Nat.pow 10 d.power.toNat) 1
      else nearestWhole n (Nat.pow 10 (-d.power).toNat)
    if whole ≥ Nat.pow 2 1024 then none else some (if d.negative then -whole else whole)

end Yaml

end CallAtlas
