import CallAtlas.Json.Basic
import CallAtlas.Text.Runs

/-!
# Reading JSON

The strict grammar: one value with blanks around it and nothing else, no leading
zeros, no control characters in strings, and at most ten thousand arrays and
objects inside one another. A code unit of a surrogate pair that stands alone
reads as the replacement character.

Every step of the reader takes at least one character, so the length of the text
bounds the recursion.

## Main definitions

* `Json.parse?`: Reads a text that is one JSON value.
-/

namespace CallAtlas

namespace Json

/-- Skips blanks. -/
def skipBlank (cs : List Char) : List Char :=
  cs.dropWhile fun c => c == ' ' || c == '\t' || c == '\n' || c == '\r'

/-- Takes the digits at the front; there has to be one. -/
def takeDigits (cs : List Char) : Option (List Char × List Char) :=
  let ds := cs.takeWhile Char.isDigit
  if ds.isEmpty then none else some (ds, cs.dropWhile Char.isDigit)

/-- Takes the digits before the point: a zero stands alone. -/
def takeWhole : List Char → Option (List Char × List Char)
  | '0' :: rest => some (['0'], rest)
  | cs => takeDigits cs

/-- Takes a point with digits, if there is a point. -/
def takeFraction : List Char → Option (List Char × List Char)
  | '.' :: rest => (takeDigits rest).map fun (ds, r) => ('.' :: ds, r)
  | cs => some ([], cs)

/-- Takes an exponent, if there is one. -/
def takeExponent : List Char → Option (List Char × List Char)
  | c :: rest =>
    if c == 'e' || c == 'E' then
      match rest with
      | s :: rest' =>
        if s == '+' || s == '-' then (takeDigits rest').map fun (ds, r) => (c :: s :: ds, r)
        else (takeDigits rest).map fun (ds, r) => (c :: ds, r)
      | [] => none
    else some ([], c :: rest)
  | [] => some ([], [])

/-- Reads a number. -/
def readNumber (cs : List Char) : Option (Json × List Char) := do
  let (sign, cs) := match cs with
    | '-' :: rest => (['-'], rest)
    | _ => ([], cs)
  let (whole, cs) ← takeWhole cs
  let (fraction, cs) ← takeFraction cs
  let (exponent, cs) ← takeExponent cs
  return (num (String.ofList (sign ++ whole ++ fraction ++ exponent)), cs)

/-- Reads four hexadecimal digits. -/
def readUnit : List Char → Option (Nat × List Char)
  | a :: b :: c :: d :: rest => (Text.Run.hex? [a, b, c, d]).map fun n => (n, rest)
  | _ => none

/-- Whether a code unit is half of a pair. -/
def isSurrogate (n : Nat) : Bool := 0xD800 ≤ n && n < 0xE000

/-- The replacement character. -/
def replacement : Char := Char.ofNat 0xFFFD

/-- Reads an escaped code unit behind its letter, together with the second half of
    a pair. -/
def readEscapedUnit (cs : List Char) : Option (Char × List Char) := do
  let (hi, rest) ← readUnit cs
  if !isSurrogate hi then return (Char.ofNat hi, rest)
  match rest with
  | '\\' :: 'u' :: more =>
    match readUnit more with
    | some (lo, after) =>
      if hi < 0xDC00 && 0xDC00 ≤ lo && lo < 0xE000 then
        return (Char.ofNat (0x10000 + (hi - 0xD800) * 0x400 + (lo - 0xDC00)), after)
      else return (replacement, rest)
    | none => return (replacement, rest)
  | _ => return (replacement, rest)

/-- The characters that a single letter behind a backslash stands for. -/
def escaped : Char → Option Char
  | '\x22' => some '\x22'
  | '\\' => some '\\'
  | '/' => some '/'
  | 'b' => some '\x08'
  | 'f' => some '\x0c'
  | 'n' => some '\n'
  | 'r' => some '\r'
  | 't' => some '\t'
  | _ => none

/-- Reads the characters of a string up to its closing quote, at most `steps` of
    them. -/
def readChars : (steps : Nat) → List Char → List Char → Option (String × List Char)
  | 0, _, _ => none
  | _ + 1, _, [] => none
  | steps + 1, acc, c :: rest =>
    if c == '\x22' then some (String.ofList acc.reverse, rest)
    else if c == '\\' then
      match rest with
      | 'u' :: more =>
        match readEscapedUnit more with
        | some (ch, rest) => readChars steps (ch :: acc) rest
        | none => none
      | e :: more =>
        match escaped e with
        | some ch => readChars steps (ch :: acc) more
        | none => none
      | [] => none
    else if c.toNat < 32 then none
    else readChars steps (c :: acc) rest

/-- Reads a string, from behind its opening quote. -/
def readString (cs : List Char) : Option (String × List Char) := readChars (cs.length + 1) [] cs

/-- Reads a word. -/
def readWord (word : String) (j : Json) (cs : List Char) : Option (Json × List Char) :=
  let w := word.toList
  if w.isPrefixOf cs then some (j, cs.drop w.length) else none

mutual

/-- Reads a value with at most `depth` arrays and objects inside one another. -/
def readValue : (steps depth : Nat) → List Char → Option (Json × List Char)
  | 0, _, _ => none
  | steps + 1, depth, cs =>
    match skipBlank cs with
    | [] => none
    | c :: rest =>
      if c == '\x22' then (readString rest).map fun (s, r) => (str s, r)
      else if c == '[' then
        match depth with
        | 0 => none
        | depth + 1 =>
          match skipBlank rest with
          | ']' :: r => some (arr [], r)
          | r => readItems steps depth [] r
      else if c == '\x7b' then
        match depth with
        | 0 => none
        | depth + 1 =>
          match skipBlank rest with
          | '\x7d' :: r => some (obj [], r)
          | r => readMembers steps depth [] r
      else if c == 't' then readWord "true" (bool true) (c :: rest)
      else if c == 'f' then readWord "false" (bool false) (c :: rest)
      else if c == 'n' then readWord "null" null (c :: rest)
      else readNumber (c :: rest)

/-- Reads the items of an array up to its closing bracket. -/
def readItems : (steps depth : Nat) → List Json → List Char → Option (Json × List Char)
  | 0, _, _, _ => none
  | steps + 1, depth, acc, cs =>
    match readValue steps depth cs with
    | none => none
    | some (j, cs) =>
      match skipBlank cs with
      | ',' :: r => readItems steps depth (j :: acc) r
      | ']' :: r => some (arr (j :: acc).reverse, r)
      | _ => none

/-- Reads the members of an object up to its closing brace. -/
def readMembers : (steps depth : Nat) → List (String × Json) → List Char →
    Option (Json × List Char)
  | 0, _, _, _ => none
  | steps + 1, depth, acc, cs =>
    match skipBlank cs with
    | '\x22' :: cs =>
      match readString cs with
      | none => none
      | some (name, cs) =>
        match skipBlank cs with
        | ':' :: cs =>
          match readValue steps depth cs with
          | none => none
          | some (j, cs) =>
            match skipBlank cs with
            | ',' :: r => readMembers steps depth ((name, j) :: acc) r
            | '\x7d' :: r => some (obj ((name, j) :: acc).reverse, r)
            | _ => none
        | _ => none
    | _ => none

end

/-- Reads a text that is one JSON value. -/
def parse? (s : String) : Option Json :=
  let cs := s.toList
  match readValue (cs.length + 1) 10000 cs with
  | some (j, rest) => if (skipBlank rest).isEmpty then some j else none
  | none => none

end Json

end CallAtlas
