/-!
# Blank Characters

The characters that separate words, in any script, and the trimming of texts by a
class of characters.

## Main definitions

* `isBlank`: The characters that separate words.
* `trimBoth`: Drops what is of a class from both ends.
-/

namespace CallAtlas

namespace Text

/-- The characters that separate words: blanks, line ends and the spaces of every
    width. -/
def isBlank (c : Char) : Bool :=
  let n := c.toNat
  (9 ≤ n && n ≤ 13) || n = 0x20 || n = 0x85 || n = 0xA0 || n = 0x1680 ||
    (0x2000 ≤ n && n ≤ 0x200A) || n = 0x2028 || n = 0x2029 || n = 0x202F || n = 0x205F || n = 0x3000

/-- Drops what is of a class from the end. -/
def trimRight (p : Char → Bool) (cs : List Char) : List Char :=
  (cs.reverse.dropWhile p).reverse

/-- Drops what is of a class from both ends. -/
def trimBoth (p : Char → Bool) (cs : List Char) : List Char :=
  trimRight p (cs.dropWhile p)

end Text

end CallAtlas
