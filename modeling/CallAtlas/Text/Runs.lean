/-!
# Tables of Runs

Properties of characters are the same for long runs of code points, so a
property is written down as the first code point of each run with the value
that holds from there on. The tables are text, `41:Lu 5B:Ps …`: entries between
blanks, the code point in hexadecimal digits, a colon, the value.

## Main definitions

* `Run`: The first code point of a run, with its value.
* `Run.parse`: Reads a table.
* `Run.find`: The value at a code point.
-/

namespace CallAtlas

namespace Text

/-- The first code point of a run, with the value that holds from there on. -/
structure Run where
  first : Nat
  label : String
deriving Inhabited, DecidableEq

namespace Run

/-- The value of a hexadecimal digit. -/
def hexDigit? (c : Char) : Option Nat :=
  if '0' ≤ c ∧ c ≤ '9' then some (c.toNat - 48)
  else if 'a' ≤ c ∧ c ≤ 'f' then some (c.toNat - 87)
  else if 'A' ≤ c ∧ c ≤ 'F' then some (c.toNat - 55)
  else none

/-- The number that a list of hexadecimal digits stands for. -/
def hex? (cs : List Char) : Option Nat :=
  cs.foldlM (fun n c => (hexDigit? c).map (16 * n + ·)) 0

/-- The words of a text, which blanks and line ends divide. -/
def words (cs : List Char) : List (List Char) :=
  let (done, last) := cs.foldl (fun (done, last) c =>
    if c == ' ' || c == '\n' then (if last.isEmpty then (done, []) else (last.reverse :: done, []))
    else (done, c :: last)) (([] : List (List Char)), ([] : List Char))
  (if last.isEmpty then done else last.reverse :: done).reverse

/-- Reads one entry. -/
def ofWord (w : List Char) : Run :=
  { first := (hex? (w.takeWhile (· != ':'))).getD 0
    label := String.ofList ((w.dropWhile (· != ':')).drop 1) }

/-- Reads a table. -/
def parse (table : String) : Array Run := ((words table.toList).map ofWord).toArray

/-- The last run at or before a code point, searched between two places. -/
def search (runs : Array Run) (code : Nat) (lo hi : Nat) : String :=
  if _h : lo + 1 < hi then
    let mid := (lo + hi) / 2
    if (runs[mid]?).any (fun r => r.first ≤ code) then search runs code mid hi
    else search runs code lo mid
  else (runs[lo]?).elim "" (·.label)
termination_by hi - lo

/-- The value at a code point, in a table that starts at zero and ascends. -/
def find (runs : Array Run) (code : Nat) : String := search runs code 0 runs.size

end Run

end Text

end CallAtlas
