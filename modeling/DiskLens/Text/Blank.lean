/-!
# Blank characters

Which characters stand between words, and what is left of a text when they are taken off its ends.

* `isWhiteSpace`: the White_Space property.
* `isBlank`: what ends a word, White_Space and the four information separators.
* `isBlankText`, **`trim`**: texts of blanks only, and a text without the blanks at its ends.
-/

namespace DiskLens

/-- The characters with the White_Space property. -/
def isWhiteSpace (c : Char) : Bool :=
  let n := c.toNat
  (0x09 ≤ n && n ≤ 0x0D) || n == 0x20 || n == 0x85 || n == 0xA0 || n == 0x1680 ||
    (0x2000 ≤ n && n ≤ 0x200A) || n == 0x2028 || n == 0x2029 || n == 0x202F || n == 0x205F ||
    n == 0x3000

/-- Blank characters: white space and the information separators U+001C to U+001F. -/
def isBlank (c : Char) : Bool :=
  isWhiteSpace c || (0x1C ≤ c.toNat && c.toNat ≤ 0x1F)

/-- Every character of the text is blank. -/
def isBlankText (s : List Char) : Bool := s.all isBlank

/-- The text without its longest tail of characters in `p`. -/
def dropTail (p : Char → Bool) (s : List Char) : List Char := (s.reverse.dropWhile p).reverse

/-- The text without the characters in `p` at its two ends. -/
def trimWith (p : Char → Bool) (s : List Char) : List Char := dropTail p (s.dropWhile p)

/-- **The text without the blanks at its two ends.** -/
def trim (s : List Char) : List Char := trimWith isBlank s

end DiskLens
