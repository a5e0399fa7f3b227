import CallAtlas.Table
import CallAtlas.Text.Blank
import CallAtlas.Text.Octets
import CallAtlas.Text.Search

/-!
# Files of Variables

A file of variables has a statement per line: a name, an equals sign or colon, and a
value, plain or between quotes. A quoted value may run over several lines. A value
may refer to variables that are set above it. A file with one bad statement sets
nothing.

## Main definitions

* `Variables.parse?`: The variables that a file sets.
* `Variables.expand`: A text with its references to variables replaced.
-/

namespace CallAtlas

/-- Variables with their values. -/
abbrev Variables := Table String String

namespace Variables

/-- Whether a character is a space inside a line. -/
def isInlineSpace (c : Char) : Bool :=
  c = '\t' || c = '\x0b' || c = '\x0c' || c = '\r' || c = ' ' || c = '\u0085' || c = '\u00a0'

/-- Whether an octet may stand in a name. Octets beyond the first half count as the
    letters, numbers and spaces that have their number. -/
def isNameOctet (b : UInt8) : Bool :=
  let n := b.toNat
  (48 ≤ n && n ≤ 57) || (65 ≤ n && n ≤ 90) || (97 ≤ n && n ≤ 122) || n = 95 || n = 46 ||
    n = 32 || (9 ≤ n && n ≤ 13 && n ≠ 10) ||
    [0x85, 0xA0, 0xAA, 0xB2, 0xB3, 0xB5, 0xB9, 0xBA, 0xBC, 0xBD, 0xBE].contains n ||
    (0xC0 ≤ n && n ≠ 0xD7 && n ≠ 0xF7)

/-- Whether a character may stand in a name, or between a name and the sign after it. -/
def isNameChar (c : Char) : Bool := (Text.octets (String.singleton c)).all isNameOctet

/-- The beginning of the next statement, past blanks and at most `n` comments. -/
def statement? : (n : Nat) → List Char → Option (List Char)
  | 0, _ => none
  | n + 1, cs =>
    match cs.dropWhile Text.isBlank with
    | [] => none
    | '#' :: rest => statement? n (rest.dropWhile (· ≠ '\n'))
    | c :: rest => some (c :: rest)

/-- A statement without the word that exports its variable. -/
def withoutExport (cs : List Char) : List Char :=
  let cs := cs.dropWhile isInlineSpace
  match Text.afterFront? "export".toList cs with
  | some rest => if rest.head?.any isInlineSpace then rest.dropWhile isInlineSpace else cs
  | none => cs

/-- The name that a statement sets, and what follows the sign after it. A statement
    without a sign sets the empty name to all of it. -/
def name? (cs : List Char) : Option (String × List Char) :=
  let isSign (c : Char) : Bool := c = '=' || c = ':'
  let name := cs.takeWhile fun c => !isSign c && isNameChar c
  match cs.drop name.length with
  | [] => if cs.isEmpty then none else some ("", cs.dropWhile isInlineSpace)
  | c :: rest =>
    if isSign c then
      some (String.ofList (Text.trimRight Text.isBlank name), rest.dropWhile isInlineSpace)
    else none

/-- Whether a character may stand in a reference. -/
def isReferenceChar (c : Char) : Bool := ('A' ≤ c && c ≤ 'Z') || c.isDigit || c = '_'

/-- Counts a character that may stand in front. -/
def optional (c : Char) (cs : List Char) : Nat := if cs.head? = some c then 1 else 0

/-- The name in a reference, and the length of the reference, after the dollar sign. -/
def reference (cs : List Char) : List Char × Nat :=
  let before := optional '(' cs
  let before := before + optional '\x7b' (cs.drop before)
  let name := (cs.drop before).takeWhile isReferenceChar
  let length := before + name.length
  (name, length + optional '\x7d' (cs.drop length))

/-- Replaces references, after `skip` characters that are dealt with. A backslash in
    front of a reference goes, and the reference stays. -/
def expandFrom (vars : Variables) : (skip : Nat) → List Char → List Char
  | _, [] => []
  | skip + 1, _ :: cs => expandFrom vars skip cs
  | 0, '\\' :: '$' :: cs =>
    let (_, length) := reference cs
    '$' :: cs.take length ++ expandFrom vars (length + 1) ('$' :: cs)
  | 0, '$' :: cs =>
    let (name, length) := reference cs
    let value :=
      if name.isEmpty then '$' :: cs.take length
      else ((vars.find? (String.ofList name)).getD "").toList
    value ++ expandFrom vars length cs
  | 0, c :: cs => c :: expandFrom vars 0 cs

/-- A text with its references to variables replaced. -/
def expand (vars : Variables) (cs : List Char) : String := String.ofList (expandFrom vars 0 cs)

/-- Replaces the escapes of line ends. -/
def lineEscapes : List Char → List Char
  | '\\' :: c :: cs =>
    if c = '\n' then '\\' :: c :: lineEscapes cs
    else if c = 'n' then '\n' :: lineEscapes cs
    else if c = 'r' then '\r' :: lineEscapes cs
    else '\\' :: c :: lineEscapes cs
  | c :: cs => c :: lineEscapes cs
  | [] => []

/-- Drops the backslash before every character but a dollar sign. -/
def otherEscapes : List Char → List Char
  | '\\' :: '$' :: cs => '\\' :: '$' :: otherEscapes cs
  | '\\' :: c :: cs => c :: otherEscapes cs
  | c :: cs => c :: otherEscapes cs
  | [] => []

/-- The part of a plain value before a comment, which a space separates from it. Gives
    the part before the last such place, if there is one. -/
def beforeComment? : List Char → Option (List Char)
  | a :: b :: cs =>
    match beforeComment? (b :: cs) with
    | some part => some (a :: part)
    | none => if isInlineSpace a && b = '#' then some [a] else none
  | _ => none

/-- A plain value and what follows its line. -/
def plainValue (vars : Variables) (cs : List Char) : String × List Char :=
  let isEnd (c : Char) : Bool := c = '\n' || c = '\r'
  let line := cs.takeWhile (!isEnd ·)
  let value := (beforeComment? line).getD line
  (expand vars (Text.trimBoth isInlineSpace value), cs.dropWhile (!isEnd ·))

/-- The length of a quoted text after a character, up to the quote that ends it. A
    backslash before a quote keeps it from ending the text. -/
def quotedLength? (quote : Char) : (before : Char) → List Char → Option Nat
  | _, [] => none
  | before, c :: cs =>
    if c = quote && before ≠ '\\' then some 0 else (quotedLength? quote c cs).map (· + 1)

/-- A value and what follows it. -/
def value? (vars : Variables) : List Char → Option (String × List Char)
  | [] => some ("", [])
  | q :: cs =>
    if q = '"' || q = '\'' then
      (quotedLength? q q cs).map fun n =>
        let inside := Text.trimBoth (· = q) (q :: cs.take n)
        let value := if q = '"' then expand vars (otherEscapes (lineEscapes inside))
          else String.ofList inside
        (value, cs.drop (n + 1))
    else some (plainValue vars (q :: cs))

/-- Reads statements, at most `n` of them. -/
def statements? : (n : Nat) → Variables → List Char → Option Variables
  | 0, vars, _ => some vars
  | n + 1, vars, cs =>
    match statement? (cs.length + 1) cs with
    | none => some vars
    | some cs =>
      (name? (withoutExport cs)).bind fun (name, rest) =>
        (value? vars rest).bind fun (value, rest) => statements? n (vars.insert name value) rest

/-- Makes the line ends of two characters one. -/
def oneCharacterEnds : List Char → List Char
  | '\r' :: '\n' :: cs => '\n' :: oneCharacterEnds cs
  | c :: cs => c :: oneCharacterEnds cs
  | [] => []

/-- The variables that a file sets, unless one of its statements is bad. -/
def parse? (text : String) : Option Variables :=
  let cs := oneCharacterEnds text.toList
  statements? (cs.length + 1) .empty cs

/-- The value of a variable: that of the environment if it is set there, also to
    nothing, and else that of a file. -/
def lookup (environment file : Variables) (name : String) : Option String :=
  (environment.find? name).orElse fun _ => file.find? name

end Variables

end CallAtlas
