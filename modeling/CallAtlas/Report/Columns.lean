/-!
# Aligned Columns

Text in which tabs end cells, laid out so that the cells of a column are equally
wide. A column is a stretch of consecutive lines that all have a cell there which
a tab ends; its width is that of its widest cell and two blanks. The last cell of
a line ends with the line and belongs to no column. Widths are counted in
characters.

A vertical tab ends a cell as a tab does. A form feed ends a line and, with it,
every column.

## Main definitions

* `Columns.layout`: The text with its columns aligned.
-/

namespace CallAtlas

namespace Columns

/-- The number of blanks after the widest cell of a column. -/
def padding : Nat := 2

/-- The cells of the lines of a text. Each line says whether a form feed ended
    it. -/
structure Split where
  /-- The complete lines, the last one first. -/
  lines : List (List (List Char) × Bool) := []
  /-- The complete cells of the line at hand, the last one first. -/
  cells : List (List Char) := []
  /-- The cell at hand, its last character first. -/
  cell : List Char := []

/-- Takes one character. -/
def Split.take (s : Split) (c : Char) : Split :=
  if c == '\t' || c == '\x0b' then
    { s with cells := s.cell.reverse :: s.cells, cell := [] }
  else if c == '\n' || c == '\x0c' then
    { lines := ((s.cell.reverse :: s.cells).reverse, c == '\x0c') :: s.lines }
  else { s with cell := c :: s.cell }

/-- Groups lines into sections, which form feeds end. -/
def sections : List (List (List Char) × Bool) → List (List (List Char))
    → List (List (List (List Char)))
  | [], acc => if acc.isEmpty then [] else [acc.reverse]
  | (line, ends) :: rest, acc =>
    if ends then (line :: acc).reverse :: sections rest [] else sections rest (line :: acc)

/-- The width of the column that starts at the first of some lines. -/
def columnWidth (column : Nat) (lines : List (List (List Char))) : Nat :=
  (lines.takeWhile fun l => column + 1 < l.length).foldl
    (fun w l => max w ((l[column]?).elim 0 List.length + padding)) 0

/-- The widths of one column at every line of a section. A line goes on with the
    width of the line before it if both have a cell in the column. -/
def widthsOf (column : Nat) : (before : Option Nat) → List (List (List Char)) → List Nat
  | _, [] => []
  | before, line :: rest =>
    if column + 1 < line.length then
      let w := before.getD (columnWidth column (line :: rest))
      w :: widthsOf column (some w) rest
    else 0 :: widthsOf column none rest

/-- One line laid out in given widths. -/
def renderLine (widths : List Nat) : List (List Char) → List Char
  | [] => []
  | [last] => last
  | cell :: rest =>
    cell ++ List.replicate (widths.headD 0 - cell.length) ' ' ++ renderLine widths.tail rest

/-- The lines of a section laid out. -/
def renderSection (lines : List (List (List Char))) : List (List Char) :=
  let columns := lines.foldl (fun n l => max n l.length) 0
  let widths := (List.range columns).map fun c => widthsOf c none lines
  lines.zipIdx.map fun (line, i) => renderLine (widths.map fun w => (w[i]?).getD 0) line

/-- The text with its columns aligned. A text ends with a line end. -/
def layout (s : String) : String :=
  let split := s.toList.foldl Split.take {}
  let lines := (sections split.lines.reverse []).flatMap renderSection
  String.ofList (lines.flatMap (· ++ ['\n']) ++ split.cell.reverse)

end Columns

end CallAtlas
