/-!
# Timestamps

A moment is counted in milliseconds from the beginning of 1970 and shown to the
second, in universal time, in the calendar of today carried on in both directions.

## Main definitions

* `Timestamp.civil`: The date of a day.
* `Timestamp.text`: The printed form of a moment.
-/

namespace CallAtlas

namespace Timestamp

/-- A number in at least `width` digits, with its sign in front. -/
def padded (width : Nat) (n : Int) : String :=
  let digits := toString n.natAbs
  let body := String.ofList (List.replicate (width - digits.length) '0') ++ digits
  if n < 0 then "-" ++ body else body

/-- The date of a day counted from the beginning of 1970. Years are taken to begin
    in March, so that the day added in a leap year comes last, and are counted in
    cycles of four hundred, after which the calendar repeats. -/
def civil (day : Int) : Int × Int × Int :=
  let z := day + 719468
  let era := Int.fdiv z 146097
  let doe := z - era * 146097
  let yoe := (doe - doe / 1460 + doe / 36524 - doe / 146096) / 365
  let doy := doe - (365 * yoe + yoe / 4 - yoe / 100)
  let mp := (5 * doy + 2) / 153
  let d := doy - (153 * mp + 2) / 5 + 1
  let m := if mp < 10 then mp + 3 else mp - 9
  let y := yoe + era * 400
  (if m ≤ 2 then y + 1 else y, m, d)

/-- The printed form of a moment. -/
def text (milli : Int) : String :=
  let seconds := Int.fdiv milli 1000
  let day := Int.fdiv seconds 86400
  let rest := seconds - day * 86400
  let (y, m, d) := civil day
  padded 4 y ++ "-" ++ padded 2 m ++ "-" ++ padded 2 d ++ "T" ++
    padded 2 (rest / 3600) ++ ":" ++ padded 2 (rest / 60 % 60) ++ ":" ++ padded 2 (rest % 60) ++ "Z"

end Timestamp

end CallAtlas
