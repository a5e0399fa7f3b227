import CallAtlas.Text.Category

/-!
# Quoted Text

Messages quote the names they complain about, so that blanks and control
characters in them can be seen. What is printable stands as it is; a quote and a
backslash get a backslash; control characters with a letter of their own use it;
everything else is written by its number.

## Main definitions

* `quoted`: A text in double quotes.
* `quotedAlone`: A character in single quotes.
-/

namespace CallAtlas

namespace Text

/-- A number in at least `width` lower-case hexadecimal digits. -/
def hexPadded (width n : Nat) : String :=
  let digits := Nat.toDigits 16 n
  String.ofList (List.replicate (width - digits.length) '0' ++ digits)

/-- One character inside double quotes. -/
def quotedChar (c : Char) : String :=
  match c.toNat with
  | 34 => "\\\""
  | 92 => "\\\\"
  | 7 => "\\a"
  | 8 => "\\b"
  | 12 => "\\f"
  | 10 => "\\n"
  | 13 => "\\r"
  | 9 => "\\t"
  | 11 => "\\v"
  | n =>
    if isPrintable c then String.singleton c
    else if n < 32 || n = 127 then "\\x" ++ hexPadded 2 n
    else if n < 0x10000 then "\\u" ++ hexPadded 4 n
    else "\\U" ++ hexPadded 8 n

/-- A text in double quotes. -/
def quoted (s : String) : String :=
  "\"" ++ String.join (s.toList.map quotedChar) ++ "\""

/-- A character in single quotes, where a double quote needs no backslash. -/
def quotedAlone (c : Char) : String :=
  let inside := match c.toNat with
    | 34 => "\""
    | 39 => "\\'"
    | _ => quotedChar c
  "'" ++ inside ++ "'"

end Text

end CallAtlas
