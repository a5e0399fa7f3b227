import CallAtlas.Text.Literal
import CallAtlas.Yaml.Cursor
import CallAtlas.Yaml.Problem

/-!
# Scalars

The three ways to write a scalar: plain, between quotes, and as a block of indented
lines. Where a scalar runs over several lines, one line end is a space and each
further one stands for itself, except in literal blocks.

## Main definitions

* `Folding`: A text with the gap that follows it, which is not settled yet.
* `plainScalar`, `quotedScalar`, `blockScalar`: The three ways.
-/

namespace CallAtlas

namespace Yaml

/-- A text, last character first, with the gap that follows it. What the gap comes to
    depends on what follows: nothing at the end of a plain scalar, else its spaces
    if it lies in a line, else its line ends. -/
structure Folding where
  text : List Char := []
  spaces : List Char := []
  firstBreak : Option Char := none
  moreBreaks : List Char := []
  folded : Bool := false
deriving DecidableEq, Inhabited

namespace Folding

/-- Whether a gap is open. -/
def inGap (f : Folding) : Bool := f.folded || !f.spaces.isEmpty

/-- Adds a character to the gap. -/
def addGap (f : Folding) (c : Char) : Folding :=
  if isBreak c then
    if f.folded then { f with moreBreaks := c :: f.moreBreaks }
    else { f with spaces := [], firstBreak := some c, folded := true }
  else if f.folded then f
  else { f with spaces := c :: f.spaces }

/-- The text with its gap settled, last character first. -/
def settled (f : Folding) : List Char :=
  if f.folded then
    match f.firstBreak with
    | some '\n' => if f.moreBreaks.isEmpty then ' ' :: f.text else f.moreBreaks ++ f.text
    | some c => f.moreBreaks ++ c :: f.text
    | none => f.moreBreaks ++ f.text
  else f.spaces ++ f.text

/-- Adds a character to the text, after the gap. -/
def addWord (f : Folding) (c : Char) : Folding := { text := c :: f.settled }

/-- Settles the gap. -/
def settle (f : Folding) : Folding := { text := f.settled }

end Folding

/-- Whether a plain scalar ends before a character. -/
def endsPlain (inFlow : Bool) (c : Char) (cs : List Char) : Bool :=
  (c = ':' && startsGap cs) ||
    (inFlow && (c = ',' || c = '?' || c = '[' || c = ']' || c = '\x7b' || c = '\x7d'))

/-- Reads a plain scalar on. It ends at an indicator, at a comment, at a document
    boundary, and at a line that is not indented enough. -/
def plainFrom (inFlow : Bool) (indent : Int) (f : Folding) (m : Mark) :
    List Char → Except Problem (Folding × Cursor)
  | [] => .ok (f, ⟨m, []⟩)
  | c :: cs =>
    if isGap c then
      if c = '\t' && f.folded && (m.column : Int) < indent then .error .tabInIndentation
      else plainFrom inFlow indent (f.addGap c) (m.after c) cs
    else
      let stops := f.inGap && ((!inFlow && (m.column : Int) < indent) || c = '#' ||
        isDocumentBoundary m (c :: cs))
      if stops || endsPlain inFlow c cs then .ok (f, ⟨m, c :: cs⟩)
      else plainFrom inFlow indent (f.addWord c) (m.after c) cs

/-- A plain scalar, the place after it, and whether that is on a later line. -/
def plainScalar (inFlow : Bool) (indent : Int) (c : Cursor) :
    Except Problem (String × Cursor × Bool) :=
  (plainFrom inFlow indent {} c.mark c.rest).map fun (f, c) =>
    (String.ofList f.text.reverse, c, f.folded)

/-- The character of an escape that is one character after the backslash. -/
def simpleEscape? : Char → Option Char
  | '0' => some '\x00'
  | 'a' => some '\x07'
  | 'b' => some '\x08'
  | 't' | '\t' => some '\t'
  | 'n' => some '\n'
  | 'v' => some '\x0b'
  | 'f' => some '\x0c'
  | 'r' => some '\r'
  | 'e' => some '\x1b'
  | ' ' => some ' '
  | '"' => some '"'
  | '\'' => some '\''
  | '\\' => some '\\'
  | 'N' => some '\u0085'
  | '_' => some '\u00a0'
  | 'L' => some '\u2028'
  | 'P' => some '\u2029'
  | _ => none

/-- The number of digits of an escape that names a character by number. -/
def escapeDigits? : Char → Option Nat
  | 'x' => some 2
  | 'u' => some 4
  | 'U' => some 8
  | _ => none

/-- The character of an escape and the number of characters after the backslash that
    write it. -/
def escape? : List Char → Option (Char × Nat)
  | [] => none
  | e :: cs =>
    match escapeDigits? e with
    | none => (simpleEscape? e).map fun c => (c, 1)
    | some n =>
      if cs.length < n then none
      else (Text.hexNumber? (cs.take n)).bind fun v =>
        if v.isValidChar then some (Char.ofNat v, n + 1) else none

/-- Reads a quoted scalar on, after `skip` characters that are already read. -/
def quotedFrom (single : Bool) : (skip : Nat) → Folding → Mark → List Char →
    Except Problem (List Char × Cursor)
  | _, _, _, [] => .error .unterminatedScalar
  | skip + 1, f, m, c :: cs => quotedFrom single skip f (m.after c) cs
  | 0, f, m, c :: cs =>
    if isGap c then quotedFrom single 0 (f.addGap c) (m.after c) cs
    else if isDocumentBoundary m (c :: cs) then .error .unterminatedScalar
    else if single then
      if c = '\'' then
        if cs.head? = some '\'' then quotedFrom single 1 (f.addWord c) (m.after c) cs
        else .ok (f.settled, ⟨m.after c, cs⟩)
      else quotedFrom single 0 (f.addWord c) (m.after c) cs
    else if c = '"' then .ok (f.settled, ⟨m.after c, cs⟩)
    else if c = '\\' then
      if !cs.isEmpty && startsBreak cs then
        quotedFrom single 1 { f.settle with folded := true } (m.after c) cs
      else
        match escape? cs with
        | some (e, n) => quotedFrom single n (f.addWord e) (m.after c) cs
        | none => .error .badEscape
    else quotedFrom single 0 (f.addWord c) (m.after c) cs

/-- A quoted scalar and the place after it. The cursor is at the opening quote. -/
def quotedScalar (single : Bool) (c : Cursor) : Except Problem (String × Cursor) :=
  let c := c.next
  (quotedFrom single 0 {} c.mark c.rest).map fun (text, c) => (String.ofList text.reverse, c)

/-- What becomes of the line ends after a block. -/
inductive Chomping where
  | strip
  | clip
  | keep
deriving DecidableEq, Inhabited

/-- The chomping that a character of a block header asks for. -/
def Chomping.ofChar? : Char → Option Chomping
  | '+' => some .keep
  | '-' => some .strip
  | _ => none

/-- The indentation that a character of a block header asks for. -/
def indentation? (c : Char) : Option Nat :=
  if '0' ≤ c && c ≤ '9' then some (c.toNat - 48) else none

/-- The header of a block: chomping and indentation, in either order. -/
def blockHeader (c : Cursor) : Except Problem (Chomping × Nat × Cursor) :=
  let sized (c : Cursor) (chomping : Chomping) : Except Problem (Chomping × Nat × Cursor) :=
    match c.rest.head?.bind indentation? with
    | some 0 => .error .badBlockHeader
    | some n => .ok (chomping, n, c.next)
    | none => .ok (chomping, 0, c)
  match c.rest.head?.bind Chomping.ofChar? with
  | some chomping => sized c.next chomping
  | none =>
    (sized c .clip).map fun (chomping, n, c) =>
      match n, c.rest.head?.bind Chomping.ofChar? with
      | _ + 1, some chomping => (chomping, n, c.next)
      | _, _ => (chomping, n, c)

/-- Past the indentation and the empty lines that follow. Gives their line ends, last
    first, and the largest column that was reached. An indentation of zero is not
    known yet. -/
def blockBreaks (indent : Nat) (breaks : List Char) (deepest : Nat) (m : Mark) :
    List Char → Except Problem (List Char × Nat × Cursor)
  | [] => .ok (breaks, max deepest m.column, ⟨m, []⟩)
  | c :: cs =>
    let inIndentation := indent = 0 || m.column < indent
    if c = ' ' && inIndentation then blockBreaks indent breaks deepest (m.after c) cs
    else if c = '\t' && inIndentation then .error .tabInIndentation
    else if isBreak c then blockBreaks indent (c :: breaks) (max deepest m.column) (m.after c) cs
    else .ok (breaks, max deepest m.column, ⟨m, c :: cs⟩)

/-- The lines of a block so far, last character first, with the line end after the
    last line and those of the empty lines that follow it. -/
structure BlockText where
  text : List Char := []
  lineEnd : List Char := []
  breaks : List Char := []
  spaced : Bool := false

/-- Reads the lines of a block, at most `n` of them. -/
def blockLines (literal : Bool) (indent : Nat) :
    (n : Nat) → BlockText → Cursor → Except Problem (BlockText × Cursor)
  | 0, b, c => .ok (b, c)
  | n + 1, b, c =>
    if c.column ≠ indent || c.rest.isEmpty then .ok (b, c)
    else
      let spaced := c.rest.head?.any isSpace
      let joined :=
        if !literal && !b.spaced && !spaced && b.lineEnd = ['\n'] then
          if b.breaks.isEmpty then [' '] else []
        else b.lineEnd
      let (line, c) := c.takeWhile fun x => !isBreak x
      let lineEnd := c.rest.take 1
      let c := c.next
      match blockBreaks indent [] 0 c.mark c.rest with
      | .error p => .error p
      | .ok (breaks, _, c) =>
        blockLines literal indent n
          { text := line.reverse ++ (b.breaks ++ (joined ++ b.text)), lineEnd, breaks, spaced } c

/-- A block scalar and the place after it. The cursor is at the indicator, and
    `parent` is the column of the collection around it. -/
def blockScalar (literal : Bool) (parent : Int) (c : Cursor) : Except Problem (String × Cursor) := do
  let (chomping, increment, c) ← blockHeader c.next
  let c := c.skipWhile isSpace
  let c := if c.rest.head? = some '#' then c.skipWhile (!isBreak ·) else c
  if !startsBreak c.rest then .error .badBlockHeader
  else
    let c := c.next
    let given := if increment = 0 then 0 else (max parent 0).toNat + increment
    let (breaks, deepest, c) ← blockBreaks given [] 0 c.mark c.rest
    let indent := if given = 0 then max (max deepest (parent + 1).toNat) 1 else given
    let (b, c) ← blockLines literal indent (c.rest.length + 1) { breaks } c
    let tail := match chomping with
      | .strip => []
      | .clip => b.lineEnd
      | .keep => b.breaks ++ b.lineEnd
    .ok (String.ofList (tail ++ b.text).reverse, c)

end Yaml

end CallAtlas
