import CallAtlas.Text.Octets

/-!
# Octets in Base 64

Reads octets that are written with sixty-four characters, four characters for three
octets. Equals signs fill the last group.

## Main definitions

* `ofBase64?`: The octets that a text writes.
-/

namespace CallAtlas

namespace Text

/-- The value of a digit. -/
def base64Value? (c : Char) : Option Nat :=
  if 'A' ≤ c && c ≤ 'Z' then some (c.toNat - 65)
  else if 'a' ≤ c && c ≤ 'z' then some (c.toNat - 71)
  else if '0' ≤ c && c ≤ '9' then some (c.toNat + 4)
  else if c = '+' then some 62
  else if c = '/' then some 63
  else none

/-- The octets of groups of four digits, of which only the last may be filled. -/
def base64Groups? : List Char → Option (List UInt8)
  | [] => some []
  | a :: b :: c :: d :: rest =>
    match base64Value? a, base64Value? b with
    | some a, some b =>
      let first := (a * 4 + b / 16).toUInt8
      match base64Value? c, base64Value? d with
      | some c, some d =>
        (base64Groups? rest).map fun more =>
          first :: ((b % 16) * 16 + c / 4).toUInt8 :: ((c % 4) * 64 + d).toUInt8 :: more
      | some c, none =>
        if d = '=' && rest.isEmpty then some [first, ((b % 16) * 16 + c / 4).toUInt8] else none
      | none, _ => if c = '=' && d = '=' && rest.isEmpty then some [first] else none
    | _, _ => none
  | _ => none

/-- The octets that a text writes. Line ends do not count. -/
def ofBase64? (s : String) : Option (List UInt8) :=
  base64Groups? (s.toList.filter fun c => c ≠ '\n' && c ≠ '\r')

end Text

end CallAtlas
