import CallAtlas.Text.CaseOrbit
import CallAtlas.Text.Category
import CallAtlas.Text.Script

/-!
# Patterns

A pattern describes texts: single characters by the class they belong to, places
in a text by what stands around them, and sequences, choices and repetitions of
patterns. Groups change nothing about what is described; they are kept because a
pattern may not nest without limit.

Characters are code points, that is, numbers. A pattern may name a code point
that no text can contain.

## Main definitions

* `CharClass`: A class of code points.
* `CharSet`: A union of classes, each taken as it is or negated.
* `Anchor`: A condition on a place in a text.
* `Pattern`: A description of texts.
* `Pattern.repeatable`: Whether counted repetitions stay within a bound.
* `Pattern.height`, `Pattern.cost`: How deeply a pattern nests, and how large it is.
-/

namespace CallAtlas

/-- A class of code points. -/
inductive CharClass where
  /-- The code points of some ranges, the ends included. -/
  | ranges (rs : List (Nat × Nat))
  /-- The code points of a general category. -/
  | category (name : String)
  /-- The code points of a script. -/
  | script (name : String)
deriving DecidableEq, Inhabited

namespace CharClass

/-- The highest code point. -/
def maxCode : Nat := 0x10FFFF

/-- Every code point. -/
def any : CharClass := ranges [(0, maxCode)]

/-- Whether a code point is in the class. -/
def test : CharClass → Nat → Bool
  | ranges rs, c => rs.any fun r => r.1 ≤ c && c ≤ r.2
  | category n, c => (Text.Category.test n).any (· c)
  | script n, c => (Text.Script.test n).any (· c)

end CharClass

/-- A class in a union, taken as it is or negated. -/
structure CharItem where
  cls : CharClass
  negated : Bool := false
deriving DecidableEq, Inhabited

/-- A union of classes, taken as it is or negated. -/
structure CharSet where
  items : List CharItem
  negated : Bool := false
  /-- Whether a character stands for all its forms that differ in case alone. -/
  foldCase : Bool := false
deriving DecidableEq, Inhabited

namespace CharSet

/-- The set of one code point. -/
def single (c : Nat) (foldCase : Bool) : CharSet :=
  { items := [{ cls := .ranges [(c, c)] }], foldCase }

/-- Whether a code point is in a class of the union. Folding of case comes before
    negation. -/
def testItem (foldCase : Bool) (c : Nat) (i : CharItem) : Bool :=
  let found := if foldCase then (Text.CaseOrbit.variants c).any i.cls.test else i.cls.test c
  found != i.negated

/-- Whether a code point is in the set. -/
def test (s : CharSet) (c : Nat) : Bool :=
  s.items.any (testItem s.foldCase c) != s.negated

end CharSet

/-- A condition on a place in a text. -/
inductive Anchor where
  | beginText
  | endText
  | beginLine
  | endLine
  | wordBoundary
  | noWordBoundary
deriving DecidableEq, Inhabited

/-- A description of texts. -/
inductive Pattern where
  /-- The empty text. -/
  | empty
  /-- One given character. -/
  | literal (s : CharSet)
  /-- One character of a set. -/
  | set (s : CharSet)
  /-- The empty text, where a condition holds. -/
  | anchor (a : Anchor)
  | seq (p q : Pattern)
  | alt (p q : Pattern)
  | star (p : Pattern)
  | plus (p : Pattern)
  | opt (p : Pattern)
  /-- At least `least` times, and at most `most` times if that is given. -/
  | counted (p : Pattern) (least : Nat) (most : Option Nat)
  | group (p : Pattern)
deriving DecidableEq, Inhabited

namespace Pattern

/-- A sequence of patterns. -/
def sequence : List Pattern → Pattern
  | [] => empty
  | [p] => p
  | p :: ps => seq p (sequence ps)

/-- A choice of patterns. -/
def choice : List Pattern → Pattern
  | [] => empty
  | [p] => p
  | p :: ps => alt p (choice ps)

/-- Whether counted repetitions inside one another ask for at most `n` copies of
    anything. -/
def repeatable : Pattern → Nat → Bool
  | empty, _ | literal _, _ | set _, _ | anchor _, _ => true
  | seq p q, n | alt p q, n => p.repeatable n && q.repeatable n
  | star p, n | plus p, n | opt p, n | group p, n => p.repeatable n
  | counted p least most, n =>
    match most with
    | some 0 => true
    | _ =>
      let m := most.getD least
      m ≤ n && p.repeatable (if m = 0 then n else n / m)

/-- The number of instructions that a pattern stands for. -/
def cost : Pattern → Nat
  | empty | literal _ | set _ | anchor _ => 1
  | seq p q => p.cost + q.cost
  | alt p q => p.cost + q.cost + 1
  | star p | group p => p.cost + 2
  | plus p | opt p => p.cost + 1
  | counted p least none => if least = 0 then p.cost + 2 else 1 + least * p.cost
  | counted p least (some most) => max 1 (most * p.cost + (most - least))

/-- How deeply a pattern nests, seen from where it stands: alone, in a sequence,
    or in a choice. Sequences in a sequence and choices in a choice do not nest,
    and neither do neighbouring characters. -/
structure Depth where
  alone : Nat
  inSeq : Nat
  inAlt : Nat
  isText : Bool := false

/-- The nesting of a pattern that is neither a sequence nor a choice. -/
def Depth.flat (n : Nat) : Depth := ⟨n, n, n, false⟩

/-- How deeply a pattern nests. -/
def depth : Pattern → Depth
  | empty | set _ | anchor _ => .flat 1
  | literal _ => ⟨1, 1, 1, true⟩
  | seq p q =>
    let a := p.depth
    let b := q.depth
    if a.isText && b.isText then ⟨1, 1, 1, true⟩
    else
      let m := max a.inSeq b.inSeq
      ⟨m + 1, m, m + 1, false⟩
  | alt p q =>
    let m := max p.depth.inAlt q.depth.inAlt
    ⟨m + 1, m + 1, m, false⟩
  | star p | plus p | opt p | group p | counted p _ _ => .flat (p.depth.alone + 1)

/-- How deeply a pattern nests. -/
def height (p : Pattern) : Nat := p.depth.alone

end Pattern

end CallAtlas
