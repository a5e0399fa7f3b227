import CallAtlas.Yaml.Scalar
import CallAtlas.Yaml.Token

/-!
# Scanning

Tokens are found one after the other. Indentation opens and closes collections, so
the scanner keeps the columns of the open ones. A key without an indicator is known
as a key only when the value indicator after it is reached; until then its place is
kept, and the tokens that make it a key are put in there.

Such a key ends on the line where it begins, within 1024 characters. One that stands
at the column of an open mapping has to be a key.

## Main definitions

* `Scanner`: The state of a scan.
* `Scanner.fetch`: Finds the next token.
* `Scanner.readyAt`: Finds tokens until the one at a position is settled.
-/

namespace CallAtlas

namespace Yaml

/-- A place where a key may have begun. -/
structure KeyPlace where
  possible : Bool := false
  required : Bool := false
  position : Nat := 0
  mark : Mark := {}
deriving DecidableEq, Inhabited

/-- Whether a key that began at a place would have ended by now. -/
def KeyPlace.isOver (k : KeyPlace) (m : Mark) : Bool :=
  k.mark.line < m.line || k.mark.index + 1024 < m.index

/-- The state of a scan: all tokens so far, the columns of the open block collections,
    the number of open flow collections, and the place of a possible key for each of
    these and the outermost level, innermost first. -/
structure Scanner where
  cursor : Cursor
  started : Bool := false
  tokens : Array Token := #[]
  indent : Int := -1
  outer : List Int := []
  flow : Nat := 0
  keyAllowed : Bool := false
  places : List KeyPlace := []
deriving Inhabited

namespace Scanner

/-- The number of collections that may be open at once. -/
def maxDepth : Nat := 10000

/-- Adds a token at the end. -/
def push (s : Scanner) (t : Token) : Scanner := { s with tokens := s.tokens.push t }

/-- Puts a token in at a position. -/
def insertAt (s : Scanner) (position : Nat) (t : Token) : Scanner :=
  { s with tokens := ((s.tokens.toList.take position) ++ t :: s.tokens.toList.drop position).toArray }

/-- The place of a possible key on the innermost level. -/
def place (s : Scanner) : KeyPlace := s.places.headD {}

/-- Sets the place of a possible key on the innermost level. -/
def setPlace (s : Scanner) (k : KeyPlace) : Scanner := { s with places := k :: s.places.drop 1 }

/-- Gives up a possible key. -/
def dropKey (s : Scanner) : Except Problem Scanner :=
  if s.place.possible && s.place.required then .error .missingValueIndicator
  else .ok (s.setPlace { s.place with possible := false })

/-- Keeps this place as that of a possible key. -/
def saveKey (s : Scanner) : Except Problem Scanner :=
  if s.keyAllowed then
    let k : KeyPlace :=
      { possible := true, required := s.flow = 0 && s.indent = s.cursor.column
        position := s.tokens.size, mark := s.cursor.mark }
    s.dropKey.map fun s => s.setPlace k
  else .ok s

/-- Opens a block collection at a column, if it is deeper than the open one. -/
def roll (s : Scanner) (column : Nat) (position : Option Nat) (t : Token) :
    Except Problem Scanner :=
  if s.flow > 0 || s.indent ≥ column then .ok s
  else if s.outer.length ≥ maxDepth then .error .tooDeep
  else
    let s := { s with outer := s.indent :: s.outer, indent := column }
    .ok (match position with
      | some p => s.insertAt p t
      | none => s.push t)

/-- Closes block collections that are deeper than a column. -/
def unrollFrom (column : Int) : List Int → Scanner → Scanner
  | [], s => { s with outer := [] }
  | i :: is, s =>
    if s.indent > column then
      unrollFrom column is { s.push .blockEnd with indent := i }
    else { s with outer := i :: is }

/-- Closes block collections that are deeper than a column. -/
def unroll (column : Int) (s : Scanner) : Scanner :=
  if s.flow > 0 then s else unrollFrom column s.outer s

/-- Past a comment and those that follow it with nothing but blanks between. -/
def skipComments : (n : Nat) → Cursor → Cursor
  | 0, c => c
  | n + 1, c =>
    let c := c.skipWhile (!isBreak ·)
    let next := c.skipWhile fun x => isSpace x || x = '\n'
    if next.rest.head? = some '#' then skipComments n next else c

/-- Past blanks, comments and line ends, over at most `n` lines. A tab may not stand
    where a key may begin. -/
def skipToToken : (n : Nat) → Scanner → Scanner
  | 0, s => s
  | n + 1, s =>
    let c := s.cursor
    let c := if c.column = 0 && c.rest.head? = some '\ufeff' then c.next else c
    let c := c.skipWhile fun x => x = ' ' || ((s.flow > 0 || !s.keyAllowed) && x = '\t')
    let c := if c.rest.head? = some '#' then skipComments c.rest.length c else c
    if c.rest.head?.any isBreak then
      skipToToken n { s with cursor := c.next, keyAllowed := s.flow = 0 || s.keyAllowed }
    else { s with cursor := c }

/-- Past a comment on the line of a token. -/
def skipLineComment (s : Scanner) : Scanner :=
  let c := s.cursor.skipWhile isSpace
  if c.rest.head? = some '#' then { s with cursor := c.skipWhile (!isBreak ·) } else s

/-- Adds the token of an indicator of some characters. -/
def indicator (s : Scanner) (length : Nat) (t : Token) : Scanner :=
  { s with cursor := s.cursor.skip length }.push t

/-- Ends the stream. -/
def finish (s : Scanner) : Except Problem Scanner :=
  let m := s.cursor.mark
  let m := if m.column = 0 then m else { m with line := m.line + 1, column := 0 }
  let s := { s with cursor := { s.cursor with mark := m } }.unroll (-1)
  s.dropKey.map fun s => { s with keyAllowed := false }.push .streamEnd

/-- Closes all collections before something that stands between documents. -/
def betweenDocuments (s : Scanner) : Except Problem Scanner :=
  (s.unroll (-1)).dropKey.map fun s => { s with keyAllowed := false }

/-- Adds a token that opens a flow collection. -/
def openFlow (s : Scanner) (t : Token) : Except Problem Scanner := do
  let s ← s.saveKey
  if s.flow ≥ maxDepth then .error .tooDeep
  else
    .ok ({ s with places := {} :: s.places, flow := s.flow + 1, keyAllowed := true }.indicator 1 t)

/-- Adds a token that closes a flow collection. -/
def closeFlow (s : Scanner) (t : Token) : Except Problem Scanner :=
  s.dropKey.map fun s =>
    let s := if s.flow > 0 then { s with places := s.places.drop 1, flow := s.flow - 1 } else s
    { s with keyAllowed := false }.indicator 1 t

/-- Adds the token between two entries of a flow collection. -/
def flowEntry (s : Scanner) : Except Problem Scanner :=
  s.dropKey.map fun s => { s with keyAllowed := true }.indicator 1 .flowEntry

/-- Opens a block collection for an indicator that stands here. -/
def rollHere (s : Scanner) (t : Token) : Except Problem Scanner :=
  if s.flow > 0 then .ok s
  else if !s.keyAllowed then .error .misplacedIndicator
  else s.roll s.cursor.column none t

/-- Adds the token before an entry of a block sequence. -/
def blockEntry (s : Scanner) : Except Problem Scanner := do
  let s ← s.rollHere .blockSequence
  let s ← s.dropKey
  .ok ({ s with keyAllowed := true }.indicator 1 .blockEntry)

/-- Adds the token of a key indicator. -/
def keyIndicator (s : Scanner) : Except Problem Scanner := do
  let s ← s.rollHere .blockMapping
  let s ← s.dropKey
  .ok ({ s with keyAllowed := s.flow = 0 }.indicator 1 .key)

/-- Adds the token of a value indicator, and those that make what precedes it a
    key. -/
def valueIndicator (s : Scanner) : Except Problem Scanner := do
  let k := s.place
  let past := k.isOver s.cursor.mark
  if k.possible && past && k.required then .error .missingValueIndicator
  else if k.possible && !past then
    let s := s.insertAt k.position .key
    let s ← s.roll k.mark.column (some k.position) .blockMapping
    let s := s.setPlace { k with possible := false }
    .ok ({ s with keyAllowed := false }.indicator 1 .value)
  else
    let s ← (s.setPlace { k with possible := false }).rollHere .blockMapping
    .ok ({ s with keyAllowed := s.flow = 0 }.indicator 1 .value)

/-- Adds a token that was read up to a place. -/
def pushAt (s : Scanner) (t : Token) (c : Cursor) : Scanner :=
  { s with cursor := c, keyAllowed := false }.push t

/-- Whether a plain scalar begins with some characters. -/
def startsPlain (s : Scanner) (c : Char) (cs : List Char) : Bool :=
  !(isGap c || "-?:,[]\x7b\x7d#&*!|>'\"%@\x60".toList.contains c) ||
    (c = '-' && !(cs.head?.any isSpace)) ||
    (s.flow = 0 && (c = '?' || c = ':') && !startsGap cs)

/-- Adds a plain scalar. -/
def plain (s : Scanner) : Except Problem Scanner := do
  let s ← s.saveKey
  let (text, c, folded) ← plainScalar (s.flow > 0) (s.indent + 1) s.cursor
  let s := { s.pushAt (.scalar text true) c with keyAllowed := folded }
  .ok (if folded then s else s.skipLineComment)

/-- Finds the next token, given the characters that follow. -/
def fetchFrom (s : Scanner) (c : Char) (cs : List Char) : Except Problem Scanner := do
  let indicates := s.flow > 0 || startsGap cs
  if c = '[' then (s.openFlow .flowSequence).map skipLineComment
  else if c = '\x7b' then (s.openFlow .flowMapping).map skipLineComment
  else if c = ']' then (s.closeFlow .flowSequenceEnd).map skipLineComment
  else if c = '\x7d' then (s.closeFlow .flowMappingEnd).map skipLineComment
  else if c = ',' then s.flowEntry.map skipLineComment
  else if c = '-' && startsGap cs then s.blockEntry
  else if c = '?' && indicates then s.keyIndicator.map skipLineComment
  else if c = ':' && indicates then s.valueIndicator.map skipLineComment
  else if c = '*' || c = '&' then
    let s ← s.saveKey
    let (name, at_) ← anchorName s.cursor
    .ok (s.pushAt (if c = '*' then .alias name else .anchor name) at_).skipLineComment
  else if c = '!' then
    let s ← s.saveKey
    let (t, at_) ← tagToken s.cursor
    .ok (s.pushAt t at_).skipLineComment
  else if (c = '|' || c = '>') && s.flow = 0 then
    let s ← s.dropKey
    let (text, at_) ← blockScalar (c = '|') s.indent s.cursor
    .ok { s.pushAt (.scalar text false) at_ with keyAllowed := true }
  else if c = '\'' || c = '"' then
    let s ← s.saveKey
    let (text, at_) ← quotedScalar (c = '\'') s.cursor
    .ok (s.pushAt (.scalar text false) at_).skipLineComment
  else if s.startsPlain c cs then s.plain
  else .error .unexpectedCharacter

/-- Finds the next token. -/
def fetch (s : Scanner) : Except Problem Scanner :=
  if !s.started then
    .ok ({ s with started := true, keyAllowed := true, places := [{}] }.push .streamStart)
  else
    let s := skipToToken (s.cursor.rest.length + 1) s
    let s := s.unroll s.cursor.column
    let m := s.cursor.mark
    match s.cursor.rest with
    | [] => s.finish
    | c :: cs =>
      if m.column = 0 && c = '%' then do
        let s ← s.betweenDocuments
        let (t, at_) ← directiveToken s.cursor
        .ok ({ s with cursor := at_ }.push t)
      else if isDocumentMark m '-' (c :: cs) then
        s.betweenDocuments.map fun s => s.indicator 3 .documentStart
      else if isDocumentMark m '.' (c :: cs) then
        s.betweenDocuments.map fun s => s.indicator 3 .documentEnd
      else s.fetchFrom c cs

/-- Whether the token at a position may still turn out to begin a key. -/
def isPendingAt (s : Scanner) (position : Nat) : Except Problem Bool :=
  match s.places.find? fun k => k.possible && k.position = position with
  | none => .ok false
  | some k =>
    if !k.isOver s.cursor.mark then .ok true
    else if k.required then .error .missingValueIndicator
    else .ok false

/-- Finds tokens, at most `n` of them, until the one at a position is settled and two
    more are known. -/
def readyAt (position : Nat) : (n : Nat) → Scanner → Except Problem Scanner
  | 0, s => .ok s
  | n + 1, s => do
    let pending ← s.isPendingAt position
    if position + 2 < s.tokens.size && !pending then .ok s
    else
      let s ← s.fetch
      readyAt position n s

end Scanner

end Yaml

end CallAtlas
