import CallAtlas.Text.Octets

/-!
# String Literals

The value of a string literal. Between double quotes a backslash begins an escape;
between back quotes everything stands for itself, except that carriage returns are
dropped. An escape can name a single octet, so the value is a list of octets.

## Main definitions

* `literalValue?`: The octets that a literal stands for.
-/

namespace CallAtlas

namespace Text

/-- The value of a hexadecimal digit. -/
def hexValue? (c : Char) : Option Nat :=
  if '0' ≤ c && c ≤ '9' then some (c.toNat - 48)
  else if 'a' ≤ c && c ≤ 'f' then some (c.toNat - 87)
  else if 'A' ≤ c && c ≤ 'F' then some (c.toNat - 55)
  else none

/-- The number that hexadecimal digits write. -/
def hexNumber? (cs : List Char) : Option Nat :=
  cs.foldl (fun n c => n.bind fun n => (hexValue? c).map fun d => n * 16 + d) (some 0)

/-- The value of an octal digit. -/
def octalValue? (c : Char) : Option Nat :=
  if '0' ≤ c && c ≤ '7' then some (c.toNat - 48) else none

/-- The octet of an escape that is one letter after the backslash. -/
def letterEscape? : Char → Option UInt8
  | 'a' => some 7
  | 'b' => some 8
  | 'f' => some 12
  | 'n' => some 10
  | 'r' => some 13
  | 't' => some 9
  | 'v' => some 11
  | '\\' => some 92
  | '"' => some 34
  | _ => none

/-- The octets of a character given by number. -/
def numbered? (v : Nat) : Option (List UInt8) :=
  if v.isValidChar then some (octets (String.singleton (Char.ofNat v))) else none

/-- The octets between double quotes, up to the quote that ends the text, which has
    to end the literal. The first `skip` characters belong to an escape that is
    already read. -/
def doubleQuoted? : (skip : Nat) → List Char → Option (List UInt8)
  | _, [] => none
  | skip + 1, _ :: cs => doubleQuoted? skip cs
  | 0, c :: cs =>
    let digits (n : Nat) : Option Nat :=
      if cs.length ≤ n then none else hexNumber? ((cs.drop 1).take n)
    if c = '"' then if cs.isEmpty then some [] else none
    else if c = '\n' then none
    else if c ≠ '\\' then (doubleQuoted? 0 cs).map (octets (String.singleton c) ++ ·)
    else
      match cs with
      | [] => none
      | 'x' :: _ =>
        (digits 2).bind fun v => (doubleQuoted? 3 cs).map (v.toUInt8 :: ·)
      | 'u' :: _ =>
        ((digits 4).bind numbered?).bind fun bs => (doubleQuoted? 5 cs).map (bs ++ ·)
      | 'U' :: _ =>
        ((digits 8).bind numbered?).bind fun bs => (doubleQuoted? 9 cs).map (bs ++ ·)
      | e :: more =>
        match octalValue? e with
        | some first =>
          match more.map octalValue? with
          | some second :: some third :: _ =>
            let v := first * 64 + second * 8 + third
            if v < 256 then (doubleQuoted? 3 cs).map (v.toUInt8 :: ·) else none
          | _ => none
        | none => (letterEscape? e).bind fun b => (doubleQuoted? 1 cs).map (b :: ·)

/-- The octets that a literal stands for. -/
def literalValue? : List Char → Option (List UInt8)
  | '"' :: cs => doubleQuoted? 0 cs
  | '\x60' :: cs =>
    let inside := cs.takeWhile (· ≠ '\x60')
    if inside.length + 1 = cs.length then
      some (octets (String.ofList (inside.filter (· ≠ '\r'))))
    else none
  | _ => none

end Text

end CallAtlas
