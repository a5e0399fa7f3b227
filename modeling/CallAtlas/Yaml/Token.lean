import CallAtlas.Yaml.Cursor
import CallAtlas.Yaml.Problem

/-!
# Tokens

The tokens of a document, and the reading of those that carry a name: anchors,
aliases, tags and directives.

## Main definitions

* `Token`: A token.
* `anchorName`: The name after the indicator of an anchor or alias.
* `tagToken`: A tag.
* `directiveToken`: A directive.
-/

namespace CallAtlas

namespace Yaml

/-- A token. -/
inductive Token where
  | streamStart
  | streamEnd
  | version (major minor : Nat)
  | handle (name stem : List Char)
  | documentStart
  | documentEnd
  | blockSequence
  | blockMapping
  | blockEnd
  | flowSequence
  | flowSequenceEnd
  | flowMapping
  | flowMappingEnd
  | blockEntry
  | flowEntry
  | key
  | value
  | alias (name : String)
  | anchor (name : String)
  | tag (handle suffix : List Char)
  | scalar (text : String) (plain : Bool)
deriving DecidableEq, Inhabited

/-- Whether a character may stand in a name. -/
def isNameChar (c : Char) : Bool := c.isAlphanum || c = '_' || c = '-'

/-- The name after the indicator of an anchor or alias. The cursor is at the
    indicator. -/
def anchorName (c : Cursor) : Except Problem (String × Cursor) :=
  let (name, c) := c.next.takeWhile isNameChar
  let ended := startsGap c.rest || c.rest.head?.any fun x =>
    x = '?' || x = ':' || x = ',' || x = ']' || x = '\x7d' || x = '%' || x = '@' || x = '\x60'
  if name.isEmpty || !ended then .error .badAnchor else .ok (String.ofList name, c)

/-- Whether a character may stand in the suffix of a tag. -/
def isTagChar (c : Char) : Bool :=
  isNameChar c || ";/?:@&=+$,.!~*'()[]%".toList.contains c

/-- The value of a hexadecimal digit. -/
def tagHex? (c : Char) : Option Nat :=
  if c.isDigit then some (c.toNat - 48)
  else if 'a' ≤ c && c ≤ 'f' then some (c.toNat - 87)
  else if 'A' ≤ c && c ≤ 'F' then some (c.toNat - 55)
  else none

/-- The number of octets that a character with a leading octet has. -/
def octetCount? (n : Nat) : Option Nat :=
  if n < 0x80 then some 1
  else if n < 0xC0 then none
  else if n < 0xE0 then some 2
  else if n < 0xF0 then some 3
  else if n < 0xF8 then some 4
  else none

/-- Reads the octets of an escaped character: how many are still to come, and the
    number so far. -/
def escapedOctets : (more : Nat) → Nat → List Char → Option (Char × List Char)
  | 0, v, cs => some (Char.ofNat v, cs)
  | more + 1, v, '%' :: a :: b :: cs =>
    match tagHex? a, tagHex? b with
    | some a, some b =>
      let octet := a * 16 + b
      if 0x80 ≤ octet && octet < 0xC0 then escapedOctets more (v * 64 + (octet - 0x80)) cs else none
    | _, _ => none
  | _ + 1, _, _ => none

/-- Reads an escaped character. -/
def escapedChar? : List Char → Option (Char × List Char)
  | '%' :: a :: b :: cs =>
    match tagHex? a, tagHex? b with
    | some a, some b =>
      let lead := a * 16 + b
      (octetCount? lead).bind fun n =>
        let bits := if n = 1 then lead else lead % Nat.pow 2 (7 - n)
        escapedOctets (n - 1) bits cs
    | _, _ => none
  | _ => none

/-- Resolves the escapes in a tag, of at most `n` characters. -/
def unescapeTag : (n : Nat) → List Char → Option (List Char)
  | 0, cs => some cs
  | _ + 1, [] => some []
  | n + 1, '%' :: cs =>
    (escapedChar? ('%' :: cs)).bind fun (c, rest) => (unescapeTag n rest).map (c :: ·)
  | n + 1, c :: cs => (unescapeTag n cs).map (c :: ·)

/-- The suffix of a tag after what is already read of it. -/
def tagSuffix (head : List Char) (c : Cursor) : Except Problem (List Char × Cursor) :=
  let (raw, c) := c.takeWhile isTagChar
  if head.isEmpty && raw.isEmpty then .error .badTag
  else
    match unescapeTag raw.length raw with
    | some suffix => .ok (head.drop 1 ++ suffix, c)
    | none => .error .badTag

/-- The handle of a tag: names between exclamation marks. -/
def tagHandle (c : Cursor) : List Char × Cursor :=
  let (name, after) := c.next.takeWhile isNameChar
  if after.rest.head? = some '!' then ('!' :: name ++ ['!'], after.next) else ('!' :: name, after)

/-- A tag. The cursor is at the exclamation mark. -/
def tagToken (c : Cursor) : Except Problem (Token × Cursor) := do
  let ended (t : Token) (c : Cursor) : Except Problem (Token × Cursor) :=
    if startsGap c.rest then .ok (t, c) else .error .badTag
  if c.rest.drop 1 |>.head? |> (· = some '<') then
    let (suffix, c) ← tagSuffix [] (c.skip 2)
    if c.rest.head? = some '>' then ended (.tag [] suffix) c.next else .error .badTag
  else
    let (handle, after) := tagHandle c
    if handle.length > 1 && handle.getLast? = some '!' then
      let (suffix, c) ← tagSuffix [] after
      ended (.tag handle suffix) c
    else
      let (suffix, c) ← tagSuffix handle after
      if suffix.isEmpty then ended (.tag [] ['!']) c else ended (.tag ['!'] suffix) c

/-- A number of a version, of at most two digits. -/
def versionNumber (c : Cursor) : Except Problem (Nat × Cursor) :=
  let (ds, c) := c.takeWhile Char.isDigit
  if ds.isEmpty || 2 < ds.length then .error .badDirective
  else .ok (ds.foldl (fun n d => n * 10 + (d.toNat - 48)) 0, c)

/-- The value of a version directive. -/
def versionToken (c : Cursor) : Except Problem (Token × Cursor) := do
  let (major, c) ← versionNumber (c.skipWhile isSpace)
  if c.rest.head? ≠ some '.' then .error .badDirective
  else
    let (minor, c) ← versionNumber c.next
    .ok (.version major minor, c)

/-- The value of a directive that defines a tag handle. -/
def handleToken (c : Cursor) : Except Problem (Token × Cursor) := do
  let c := c.skipWhile isSpace
  if c.rest.head? ≠ some '!' then .error .badDirective
  else
    let (handle, c) := tagHandle c
    if (handle.getLast? ≠ some '!') || !(c.rest.head?.any isSpace) then .error .badDirective
    else
      let (stem, c) ← tagSuffix [] (c.skipWhile isSpace)
      if startsGap c.rest then .ok (.handle handle stem, c) else .error .badDirective

/-- A directive, with the line end after it. The cursor is at the percent sign. -/
def directiveToken (c : Cursor) : Except Problem (Token × Cursor) := do
  let (name, c) := c.next.takeWhile isNameChar
  if !startsGap c.rest then .error .badDirective
  else
    let (t, c) ←
      if name = "YAML".toList then versionToken c
      else if name = "TAG".toList then handleToken c
      else .error .badDirective
    let c := c.skipWhile isSpace
    let c := if c.rest.head? = some '#' then c.skipWhile (!isBreak ·) else c
    if startsBreak c.rest then .ok (t, c.next) else .error .badDirective

end Yaml

end CallAtlas
