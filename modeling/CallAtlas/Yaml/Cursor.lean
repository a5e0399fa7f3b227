/-!
# Places in a Text

A cursor is what remains of a text together with the line and column that have been
reached. Columns decide what belongs to what, so every step keeps count.

Line ends of all systems are made one before reading, so that a line ends in one
character.

## Main definitions

* `Mark`: Line, column and index.
* `Cursor`: A mark with the text that follows it.
* `Cursor.next`, `Cursor.skip`, `Cursor.skipWhile`: Steps.
* `readable?`: The characters of a text, if all of them may stand in a document.
-/

namespace CallAtlas

namespace Yaml

/-- Whether a character ends a line. -/
def isBreak (c : Char) : Bool := c = '\n' || c = '\u2028' || c = '\u2029'

/-- Whether a character is a space or a tab. -/
def isSpace (c : Char) : Bool := c = ' ' || c = '\t'

/-- Whether a character separates words or lines. -/
def isGap (c : Char) : Bool := isSpace c || isBreak c

/-- Whether the first of some characters separates words or lines, or there is
    none. -/
def startsGap : List Char → Bool
  | [] => true
  | c :: _ => isGap c

/-- Whether a line ends here. -/
def startsBreak : List Char → Bool
  | [] => true
  | c :: _ => isBreak c

/-- Line, column and index, counted from zero in characters. -/
structure Mark where
  index : Nat := 0
  line : Nat := 0
  column : Nat := 0
deriving DecidableEq, Inhabited

/-- The mark after a character. -/
def Mark.after (m : Mark) (c : Char) : Mark :=
  if isBreak c then { index := m.index + 1, line := m.line + 1, column := 0 }
  else { index := m.index + 1, line := m.line, column := m.column + 1 }

/-- A mark with the text that follows it. -/
structure Cursor where
  mark : Mark := {}
  rest : List Char
deriving DecidableEq, Inhabited

namespace Cursor

/-- The column of a cursor. -/
def column (c : Cursor) : Nat := c.mark.column

/-- One character on. -/
def next (c : Cursor) : Cursor :=
  match c.rest with
  | [] => c
  | x :: xs => ⟨c.mark.after x, xs⟩

/-- Some characters on. -/
def skip : Nat → Cursor → Cursor
  | 0, c => c
  | n + 1, c => skip n c.next

/-- Past the characters of a class. -/
def skipWhileFrom (p : Char → Bool) (m : Mark) : List Char → Cursor
  | [] => ⟨m, []⟩
  | x :: xs => if p x then skipWhileFrom p (m.after x) xs else ⟨m, x :: xs⟩

/-- Past the characters of a class. -/
def skipWhile (p : Char → Bool) (c : Cursor) : Cursor := skipWhileFrom p c.mark c.rest

/-- The characters of a class that follow, and the place after them. -/
def takeWhile (p : Char → Bool) (c : Cursor) : List Char × Cursor :=
  (c.rest.takeWhile p, c.skipWhile p)

end Cursor

/-- Whether a mark of three equal characters stands here at the beginning of a line,
    on its own. -/
def isDocumentMark (m : Mark) (x : Char) (cs : List Char) : Bool :=
  m.column = 0 && cs.take 3 = [x, x, x] && startsGap (cs.drop 3)

/-- Whether a document begins or ends here. -/
def isDocumentBoundary (m : Mark) (cs : List Char) : Bool :=
  isDocumentMark m '-' cs || isDocumentMark m '.' cs

/-- Whether a character may stand in a document. -/
def isAllowed (c : Char) : Bool :=
  let n := c.toNat
  n = 9 || n = 10 || n = 13 || (0x20 ≤ n && n ≤ 0x7E) || n = 0x85 ||
    (0xA0 ≤ n && n ≤ 0xFFFD) || 0x10000 ≤ n

/-- Makes the line ends of all systems one. -/
def uniformBreaks : List Char → List Char
  | [] => []
  | '\r' :: '\n' :: cs => '\n' :: uniformBreaks cs
  | c :: cs => (if c = '\r' || c = '\u0085' then '\n' else c) :: uniformBreaks cs

/-- The characters of a text, if all of them may stand in a document. A byte order
    mark in front is no part of the text. -/
def readable? (s : String) : Option (List Char) :=
  let cs := match s.toList with
    | '\ufeff' :: cs => cs
    | cs => cs
  if cs.all isAllowed then some (uniformBreaks cs) else none

end Yaml

end CallAtlas
