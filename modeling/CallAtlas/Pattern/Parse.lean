import CallAtlas.Pattern.Basic

/-!
# Reading Patterns

Patterns are written in the customary notation of regular expressions that can be
searched in linear time: no references back and no looking around, but character
classes by name, category and script, groups with names and flags, and counted
repetitions up to a thousand.

The reader walks over the text once and keeps a stack of open groups. Each group
holds the alternatives that are complete and the parts of the one at hand, the
last part first, because a repetition applies to the last part. A fault is
reported where the walk meets it, so of several faults the first one counts; an
open group is one only at the end.

## Main definitions

* `PatternError`: What is wrong with a pattern's text.
* `Pattern.parse`: Reads a pattern.
-/

namespace CallAtlas

/-- What is wrong with a pattern's text. Most faults quote the part at fault. -/
inductive PatternError where
  | invalidCharRange (part : String)
  | invalidEscape (part : String)
  | invalidNamedCapture (part : String)
  | invalidPerlOp (part : String)
  | invalidRepeatOp (part : String)
  | invalidRepeatSize (part : String)
  | missingBracket (part : String)
  | missingParen (whole : String)
  | missingRepeatArgument (part : String)
  | trailingBackslash
  | unexpectedParen (whole : String)
  | nestingDepth (whole : String)
  | large (whole : String)
deriving DecidableEq

namespace PatternError

/-- The kind of fault, and the part it quotes. -/
def describe : PatternError → String × String
  | invalidCharRange s => ("invalid character class range", s)
  | invalidEscape s => ("invalid escape sequence", s)
  | invalidNamedCapture s => ("invalid named capture", s)
  | invalidPerlOp s => ("invalid or unsupported Perl syntax", s)
  | invalidRepeatOp s => ("invalid nested repetition operator", s)
  | invalidRepeatSize s => ("invalid repeat count", s)
  | missingBracket s => ("missing closing ]", s)
  | missingParen s => ("missing closing )", s)
  | missingRepeatArgument s => ("missing argument to repetition operator", s)
  | trailingBackslash => ("trailing backslash at end of expression", "")
  | unexpectedParen s => ("unexpected )", s)
  | nestingDepth s => ("expression nests too deeply", s)
  | large s => ("expression too large", s)

/-- What a caller is told. -/
def message (e : PatternError) : String :=
  let (kind, part) := e.describe
  "error parsing regexp: " ++ kind ++ ": `" ++ part ++ "`"

end PatternError

namespace Pattern

/-- The settings that flags change. -/
structure Flags where
  foldCase : Bool := false
  /-- Whether line anchors mean the ends of the whole text. -/
  oneLine : Bool := true
  dotNewline : Bool := false
deriving DecidableEq

/-- An open group. -/
structure Frame where
  /-- The flags to go back to when the group closes. -/
  saved : Flags
  capture : Bool
  /-- The complete alternatives, the last one first. -/
  alts : List Pattern := []
  /-- The parts of the alternative at hand, the last one first. -/
  parts : List Pattern := []

/-- The state of the reader between two constructs. -/
structure Reader where
  flags : Flags := {}
  /-- The innermost open group. -/
  top : Frame := { saved := {}, capture := false }
  /-- The groups around it, the inner ones first. -/
  outer : List Frame := []
  /-- The text from the repetition operator on that came just before. -/
  lastRepeat : List Char := []

/-- What was read between a place and a later one. -/
def upTo (from_ to_ : List Char) : String :=
  String.ofList (from_.take (from_.length - to_.length))

/-- The characters of a text that starts with a digit, as a number. Numbers that
    could not be meant are cut off at a hundred million. -/
def readInt (s : List Char) : Option (Nat × List Char) :=
  match s with
  | [] => none
  | c :: rest =>
    if !c.isDigit then none
    else if c == '0' && (rest.head?).any Char.isDigit then none
    else
      let digits := s.takeWhile Char.isDigit
      let value := digits.foldl (fun n d =>
        if n ≥ 100000000 then n else 10 * n + (d.toNat - 48)) 0
      some (value, s.dropWhile Char.isDigit)

/-- Reads the counts of a repetition, from behind its opening brace. -/
def readCounts (s : List Char) : Option (Nat × Option Nat × List Char) := do
  let (least, s) ← readInt s
  match s with
  | '\x7d' :: rest => some (least, some least, rest)
  | ',' :: '\x7d' :: rest => some (least, none, rest)
  | ',' :: s =>
    let (most, s) ← readInt s
    match s with
    | '\x7d' :: rest => some (least, some most, rest)
    | _ => none
  | _ => none

/-- Reads hexadecimal digits up to a closing brace, from a value on. Gives the
    value, or nothing, and the text behind the last character looked at. -/
def readBracedHex (value : Nat) (any : Bool) : List Char → Option Nat × List Char
  | [] => (none, [])
  | '\x7d' :: rest => (if any then some value else none, rest)
  | c :: rest =>
    match Text.Run.hexDigit? c with
    | none => (none, rest)
    | some d =>
      let v := 16 * value + d
      if v > CharClass.maxCode then (none, rest) else readBracedHex v true rest

/-- Reads up to `n` more octal digits. -/
def readOctal : (n : Nat) → (value : Nat) → List Char → Nat × List Char
  | 0, v, s => (v, s)
  | n + 1, v, c :: rest =>
    if '0' ≤ c && c ≤ '7' then readOctal n (8 * v + (c.toNat - 48)) rest else (v, c :: rest)
  | _, v, [] => (v, [])

/-- Reads an escaped character, from its backslash on. -/
def readEscape (s : List Char) : Except PatternError (Nat × List Char) :=
  match s.drop 1 with
  | [] => .error .trailingBackslash
  | c :: t =>
    let refuse (t : List Char) : Except PatternError (Nat × List Char) :=
      .error (.invalidEscape (upTo s t))
    if '1' ≤ c && c ≤ '7' then
      if (t.head?).any (fun d => '0' ≤ d && d ≤ '7') then .ok (readOctal 2 (c.toNat - 48) t)
      else refuse t
    else if c == '0' then .ok (readOctal 2 0 t)
    else if c == 'x' then
      match t with
      | [] => refuse t
      | '\x7b' :: t =>
        match readBracedHex 0 false t with
        | (some v, t) => .ok (v, t)
        | (none, t) => refuse t
      | [_] => refuse []
      | a :: b :: t =>
        match Text.Run.hexDigit? a, Text.Run.hexDigit? b with
        | some x, some y => .ok (16 * x + y, t)
        | _, _ => refuse t
    else if c == 'a' then .ok (7, t)
    else if c == 'f' then .ok (12, t)
    else if c == 'n' then .ok (10, t)
    else if c == 'r' then .ok (13, t)
    else if c == 't' then .ok (9, t)
    else if c == 'v' then .ok (11, t)
    else if c.toNat < 128 && !c.isAlphanum then .ok (c.toNat, t)
    else refuse t

/-- The classes that a backslash and a letter name. -/
def letterClass : Char → Option CharItem
  | 'd' => some { cls := .ranges [(48, 57)] }
  | 'D' => some { cls := .ranges [(48, 57)], negated := true }
  | 's' => some { cls := .ranges [(9, 10), (12, 13), (32, 32)] }
  | 'S' => some { cls := .ranges [(9, 10), (12, 13), (32, 32)], negated := true }
  | 'w' => some { cls := .ranges [(48, 57), (65, 90), (95, 95), (97, 122)] }
  | 'W' => some { cls := .ranges [(48, 57), (65, 90), (95, 95), (97, 122)], negated := true }
  | _ => none

/-- The classes that have a name in brackets and colons. -/
def bracketClass : String → Option (List (Nat × Nat))
  | "alnum" => some [(48, 57), (65, 90), (97, 122)]
  | "alpha" => some [(65, 90), (97, 122)]
  | "ascii" => some [(0, 127)]
  | "blank" => some [(9, 9), (32, 32)]
  | "cntrl" => some [(0, 31), (127, 127)]
  | "digit" => some [(48, 57)]
  | "graph" => some [(33, 126)]
  | "lower" => some [(97, 122)]
  | "print" => some [(32, 126)]
  | "punct" => some [(33, 47), (58, 64), (91, 96), (123, 126)]
  | "space" => some [(9, 13), (32, 32)]
  | "upper" => some [(65, 90)]
  | "word" => some [(48, 57), (65, 90), (95, 95), (97, 122)]
  | "xdigit" => some [(48, 57), (65, 70), (97, 102)]
  | _ => none

/-- The class that a category or script name stands for. -/
def namedClass (name : String) : Option CharClass :=
  if name == "Any" then some .any
  else if (Text.Category.test name).isSome then some (.category name)
  else if (Text.Script.test name).isSome then some (.script name)
  else none

/-- Reads a class named by category or script, if there is one. -/
def readProperty (s : List Char) : Except PatternError (Option (CharItem × List Char)) :=
  match s with
  | '\\' :: l :: t =>
    if l == 'p' || l == 'P' then
      let finish (part name t : List Char) : Except PatternError (Option (CharItem × List Char)) :=
        let (flip, name) := match name with
          | '^' :: n => (true, n)
          | n => (false, n)
        match namedClass (String.ofList name) with
        | some cls => .ok (some ({ cls, negated := (l == 'P') != flip }, t))
        | none => .error (.invalidCharRange (String.ofList part))
      match t with
      | '\x7b' :: inner =>
        if inner.contains '\x7d' then
          let name := inner.takeWhile (· != '\x7d')
          let rest := (inner.dropWhile (· != '\x7d')).drop 1
          finish (s.take (s.length - rest.length)) name rest
        else .error (.invalidCharRange (String.ofList s))
      | c :: t => finish ['\\', l, c] [c] t
      | [] => finish ['\\', l] [] []
    else .ok none
  | _ => .ok none

/-- Cuts a text at the first place where a colon and a closing bracket follow. -/
def cutColon : List Char → Option (List Char × List Char)
  | ':' :: ']' :: rest => some ([], rest)
  | c :: rest => (cutColon rest).map fun (a, b) => (c :: a, b)
  | [] => none

/-- Reads a class named in brackets and colons, if there is one. -/
def readBracketClass (s : List Char) : Except PatternError (Option (CharItem × List Char)) :=
  match s with
  | '[' :: ':' :: t =>
    match cutColon t with
    | none => .ok none
    | some (name, rest) =>
      let (negated, base) := match name with
        | '^' :: n => (true, n)
        | n => (false, n)
      match bracketClass (String.ofList base) with
      | some rs => .ok (some ({ cls := .ranges rs, negated }, rest))
      | none => .error (.invalidCharRange ("[:" ++ String.ofList name ++ ":]"))
  | _ => .ok none

/-- Reads one character of a set. -/
def readSetChar (whole s : List Char) : Except PatternError (Nat × List Char) :=
  match s with
  | [] => .error (.missingBracket (String.ofList whole))
  | '\\' :: _ => readEscape s
  | c :: t => .ok (c.toNat, t)

/-- Reads one item of a set: a named class, a range or a single character. -/
def readSetItem (whole s : List Char) : Except PatternError (CharItem × List Char) := do
  if let some r ← readBracketClass s then return r
  if let some r ← readProperty s then return r
  match s with
  | '\\' :: l :: t =>
    if let some item := letterClass l then return (item, t)
  | _ => pure ()
  let (lo, t) ← readSetChar whole s
  match t with
  | '-' :: d :: _ =>
    if d == ']' then return ({ cls := .ranges [(lo, lo)] }, t)
    else
      let (hi, t) ← readSetChar whole (t.drop 1)
      if hi < lo then throw (.invalidCharRange (upTo s t))
      else return ({ cls := .ranges [(lo, hi)] }, t)
  | _ => return ({ cls := .ranges [(lo, lo)] }, t)

/-- Reads the items of a set up to its closing bracket, at most `steps` of them. A
    bracket that comes first is an item. -/
def readSetItems (whole : List Char) :
    (steps : Nat) → (first : Bool) → List CharItem → List Char →
    Except PatternError (List CharItem × List Char)
  | 0, _, items, s => .ok (items, s)
  | steps + 1, first, items, s =>
    match s, first with
    | ']' :: rest, false => .ok (items, rest)
    | _, _ => do
      let (item, s) ← readSetItem whole s
      readSetItems whole steps false (items ++ [item]) s

/-- Reads a set, from its opening bracket on. -/
def readSet (flags : Flags) (s : List Char) : Except PatternError (Pattern × List Char) := do
  let (negated, t) := match s.drop 1 with
    | '^' :: t => (true, t)
    | t => (false, t)
  let (items, rest) ← readSetItems s (s.length + 1) true [] t
  return (set { items, negated, foldCase := flags.foldCase }, rest)

namespace Reader

/-- Adds a part to the alternative at hand. -/
def push (r : Reader) (p : Pattern) : Reader :=
  { r with top := { r.top with parts := p :: r.top.parts } }

/-- Adds a character. -/
def pushChar (r : Reader) (code : Nat) : Reader :=
  r.push (literal (.single code r.flags.foldCase))

/-- Opens a group. -/
def openGroup (r : Reader) (capture : Bool) : Reader :=
  { r with top := { saved := r.flags, capture }, outer := r.top :: r.outer }

/-- Ends the alternative at hand. -/
def nextAlternative (r : Reader) : Reader :=
  { r with top := { r.top with alts := sequence r.top.parts.reverse :: r.top.alts, parts := [] } }

/-- The pattern of the innermost group as far as it was read. -/
def result (r : Reader) : Pattern :=
  choice ((sequence r.top.parts.reverse :: r.top.alts).reverse)

/-- Refuses a pattern that nests too deeply or stands for too many
    instructions. -/
def checkLimits (whole : List Char) (p : Pattern) : Except PatternError Pattern :=
  if p.cost > 3355443 then .error (.large (String.ofList whole))
  else if p.height > 1000 then .error (.nestingDepth (String.ofList whole))
  else .ok p

/-- Closes the innermost group. -/
def closeGroup (whole : List Char) (r : Reader) : Except PatternError Reader :=
  match r.outer with
  | [] => .error (.unexpectedParen (String.ofList whole))
  | f :: outer => do
    let p := r.result
    let p ← checkLimits whole (if r.top.capture then group p else p)
    return { r with flags := r.top.saved, top := f, outer }.push p

/-- Applies a repetition operator, which starts at `before` and ends at `after`,
    to the last part. -/
def applyRepeat (whole : List Char) (r : Reader) (make : Pattern → Pattern)
    (before after : List Char) : Except PatternError (Reader × List Char) := do
  let after := match after with
    | '?' :: t => t
    | t => t
  if !r.lastRepeat.isEmpty then throw (.invalidRepeatOp (upTo r.lastRepeat after))
  match r.top.parts with
  | [] => throw (.missingRepeatArgument (upTo before after))
  | p :: ps =>
    let q ← checkLimits whole (make p)
    match q with
    | counted _ least most =>
      if (least ≥ 2 || most.any (2 ≤ ·)) && !q.repeatable 1000 then
        throw (.invalidRepeatSize (upTo before after))
    | _ => pure ()
    return ({ r with top := { r.top with parts := q :: ps }, lastRepeat := before }, after)

/-- Whether a group may have a given name. -/
def isGroupName (name : List Char) : Bool :=
  !name.isEmpty && name.all fun c => c == '_' || c.isAlphanum

/-- Reads flags from behind the question mark of a group that starts at `s`, with
    the flags so far, whether they are being cleared, and whether any was seen. -/
def readFlags (r : Reader) (s : List Char) (flags : Flags) (clearing seen : Bool) :
    List Char → Except PatternError (Reader × List Char)
  | [] => .error (.invalidPerlOp (upTo s []))
  | c :: t =>
    let refuse : Except PatternError (Reader × List Char) := .error (.invalidPerlOp (upTo s t))
    if c == 'i' then readFlags r s { flags with foldCase := !clearing } clearing true t
    else if c == 'm' then readFlags r s { flags with oneLine := clearing } clearing true t
    else if c == 's' then readFlags r s { flags with dotNewline := !clearing } clearing true t
    else if c == 'U' then readFlags r s flags clearing true t
    else if c == '-' then
      if clearing then refuse else readFlags r s flags true false t
    else if c == ':' || c == ')' then
      if clearing && !seen then refuse
      else if c == ':' then .ok ({ r.openGroup false with flags }, t)
      else .ok ({ r with flags }, t)
    else refuse

/-- Opens a group with the name that `inner` starts with. -/
def openNamed (r : Reader) (s inner : List Char) : Except PatternError (Reader × List Char) :=
  if inner.contains '>' then
    let name := inner.takeWhile (· != '>')
    let rest := (inner.dropWhile (· != '>')).drop 1
    if isGroupName name then .ok (r.openGroup true, rest)
    else .error (.invalidNamedCapture (upTo s rest))
  else .error (.invalidNamedCapture (String.ofList s))

/-- Reads what follows an opening parenthesis and a question mark. -/
def readSpecialGroup (r : Reader) (s : List Char) : Except PatternError (Reader × List Char) :=
  match s.drop 2 with
  | 'P' :: '<' :: c :: inner => r.openNamed s (c :: inner)
  | '<' :: c :: inner => r.openNamed s (c :: inner)
  | t => readFlags r s r.flags false false t

/-- Cuts a quoted stretch at its end mark. -/
def cutQuoted : List Char → List Char × List Char
  | '\\' :: 'E' :: rest => ([], rest)
  | c :: rest =>
    let (a, b) := cutQuoted rest
    (c :: a, b)
  | [] => ([], [])

/-- Reads what a backslash starts. -/
def readBackslash (r : Reader) (s : List Char) : Except PatternError (Reader × List Char) := do
  match s with
  | '\\' :: c :: t =>
    match c with
    | 'A' => return (r.push (anchor .beginText), t)
    | 'b' => return (r.push (anchor .wordBoundary), t)
    | 'B' => return (r.push (anchor .noWordBoundary), t)
    | 'C' => throw (.invalidEscape (upTo s t))
    | 'Q' =>
      let (quoted, t) := cutQuoted t
      return (quoted.foldl (fun r c => r.pushChar c.toNat) r, t)
    | 'z' => return (r.push (anchor .endText), t)
    | _ => pure ()
  | _ => pure ()
  if let some (item, t) ← readProperty s then
    return (r.push (set { items := [item], foldCase := r.flags.foldCase }), t)
  match s with
  | '\\' :: c :: t =>
    if let some item := letterClass c then
      return (r.push (set { items := [item], foldCase := r.flags.foldCase }), t)
  | _ => pure ()
  let (code, t) ← readEscape s
  return (r.pushChar code, t)

/-- Reads a counted repetition; a brace that starts none is a character. -/
def readBrace (whole : List Char) (r : Reader) (s : List Char) :
    Except PatternError (Reader × List Char) :=
  match readCounts (s.drop 1) with
  | none => .ok ({ r.pushChar 0x7b with lastRepeat := [] }, s.drop 1)
  | some (least, most, after) =>
    if least > 1000 || most.any (fun m => m > 1000 || m < least) then
      .error (.invalidRepeatSize (upTo s after))
    else r.applyRepeat whole (counted · least most) s after

/-- Reads the construct at the front of a text. -/
def readConstruct (whole : List Char) (r : Reader) (s : List Char) :
    Except PatternError (Reader × List Char) := do
  match s with
  | [] => return (r, [])
  | c :: t =>
    match c with
    | '*' => r.applyRepeat whole star s t
    | '+' => r.applyRepeat whole plus s t
    | '?' => r.applyRepeat whole opt s t
    | '\x7b' => r.readBrace whole s
    | _ =>
      let (r, t) ← match c with
        | '(' =>
          if (t.head?) == some '?' then r.readSpecialGroup s else pure (r.openGroup true, t)
        | '|' => pure (r.nextAlternative, t)
        | ')' => do
          let r ← r.closeGroup whole
          pure (r, t)
        | '^' => pure (r.push (anchor (if r.flags.oneLine then .beginText else .beginLine)), t)
        | '$' => pure (r.push (anchor (if r.flags.oneLine then .endText else .endLine)), t)
        | '.' =>
          let items : List CharItem :=
            if r.flags.dotNewline then [{ cls := .any }]
            else [{ cls := .ranges [(10, 10)], negated := true }]
          pure (r.push (set { items }), t)
        | '[' => do
          let (p, t) ← readSet r.flags s
          pure (r.push p, t)
        | '\\' => r.readBackslash s
        | _ => pure (r.pushChar c.toNat, t)
      return ({ r with lastRepeat := [] }, t)

/-- Reads at most `steps` constructs. -/
def readAll (whole : List Char) : (steps : Nat) → Reader → List Char → Except PatternError Reader
  | 0, r, _ => .ok r
  | steps + 1, r, s =>
    if s.isEmpty then .ok r
    else do
      let (r, s) ← r.readConstruct whole s
      readAll whole steps r s

end Reader

/-- Reads a pattern. -/
def parse (s : String) : Except PatternError Pattern := do
  let whole := s.toList
  let r ← Reader.readAll whole (whole.length + 1) {} whole
  match r.outer with
  | [] => Reader.checkLimits whole r.result
  | _ => throw (.missingParen s)

end Pattern

end CallAtlas
