import CallAtlas.Json.Basic
import CallAtlas.Text.Quoted

/-!
# Writing JSON

A value on one line, without blanks. Control characters, quotes and backslashes
are escaped; every other character stands as it is.

## Main definitions

* `Json.render`: The text of a value.
-/

namespace CallAtlas

namespace Json

/-- One character of a string. -/
def renderChar (c : Char) : String :=
  match c.toNat with
  | 34 => "\\\""
  | 92 => "\\\\"
  | 10 => "\\n"
  | 13 => "\\r"
  | 9 => "\\t"
  | n => if n < 32 || n = 127 then "\\u" ++ Text.hexPadded 4 n else String.singleton c

/-- A string in quotes. -/
def renderString (s : String) : String :=
  s.toList.foldl (fun out c => out ++ renderChar c) "\"" ++ "\""

mutual

/-- The text of a value. -/
def render : Json → String
  | null => "null"
  | bool true => "true"
  | bool false => "false"
  | num s => s
  | str s => renderString s
  | arr items => "[" ++ renderItems items ++ "]"
  | obj members => "\x7b" ++ renderMembers members ++ "\x7d"

/-- The items of an array with commas between them. -/
def renderItems : List Json → String
  | [] => ""
  | [j] => render j
  | j :: js => render j ++ "," ++ renderItems js

/-- The members of an object with commas between them. -/
def renderMembers : List (String × Json) → String
  | [] => ""
  | [(n, j)] => renderString n ++ ":" ++ render j
  | (n, j) :: ms => renderString n ++ ":" ++ render j ++ "," ++ renderMembers ms

end

end Json

end CallAtlas
