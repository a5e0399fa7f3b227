/-!
# Words

Whole numbers are kept in words of 64 bits with a sign, and what does not fit is
refused where it is read.

## Main definitions

* `Word.bound`: One more than the highest number of a word.
* `Word.fits`: Whether a number fits into a word.
-/

namespace CallAtlas

namespace Word

/-- One more than the highest number of a word. -/
def bound : Int := 9223372036854775808

/-- Whether a number fits into a word. -/
def fits (n : Int) : Bool := -bound ≤ n && n < bound

end Word

end CallAtlas
