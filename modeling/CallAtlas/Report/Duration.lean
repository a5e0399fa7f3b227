import CallAtlas.Word

/-!
# Durations

Durations are counted in nanoseconds and shown to the millisecond: hours, minutes
and seconds from one second on, milliseconds below. Halves round away from zero. A
duration at the end of the 64-bit range that would round beyond it is cut off
there.

## Main definitions

* `Duration.roundToMilli`: The nearest whole millisecond.
* `Duration.text`: The printed form of a duration.
-/

namespace CallAtlas

namespace Duration

/-- The nanoseconds of a millisecond. -/
def milli : Int := 1000000

/-- The nanoseconds of a second. -/
def second : Nat := 1000000000

/-- The highest duration. -/
def maxNanos : Int := Word.bound - 1

/-- The lowest duration. -/
def minNanos : Int := -Word.bound

/-- The nearest whole millisecond, away from zero at a half. -/
def roundToMilli (d : Int) : Int :=
  let r := Int.tmod d milli
  let toZero := d - r
  if d < 0 then
    if -r * 2 < milli then toZero
    else if toZero - milli < minNanos then minNanos else toZero - milli
  else
    if r * 2 < milli then toZero
    else if toZero + milli > maxNanos then maxNanos else toZero + milli

/-- The digits behind the point for `n` of `10 ^ places`, without zeros at the
    end. -/
def fraction (places n : Nat) : String :=
  let digits := Nat.toDigits 10 n
  let padded := List.replicate (places - digits.length) '0' ++ digits
  let kept := (padded.reverse.dropWhile (· == '0')).reverse
  if kept.isEmpty then "" else "." ++ String.ofList kept

/-- The printed form of a number of nanoseconds below one second. -/
def shortText (n : Nat) : String :=
  if n = 0 then "0s"
  else if n < 1000 then toString n ++ "ns"
  else if n < 1000000 then toString (n / 1000) ++ fraction 3 (n % 1000) ++ "µs"
  else toString (n / 1000000) ++ fraction 6 (n % 1000000) ++ "ms"

/-- The printed form of a number of nanoseconds from one second on. -/
def longText (n : Nat) : String :=
  let seconds := n / second
  let minutes := seconds / 60
  let hours := minutes / 60
  let tail := toString (seconds % 60) ++ fraction 9 (n % second) ++ "s"
  if minutes = 0 then tail
  else if hours = 0 then toString minutes ++ "m" ++ tail
  else toString hours ++ "h" ++ toString (minutes % 60) ++ "m" ++ tail

/-- The printed form of a duration. -/
def text (d : Int) : String :=
  let n := d.natAbs
  let body := if n < second then shortText n else longText n
  if d < 0 then "-" ++ body else body

end Duration

end CallAtlas
