/-!
# Code points

A text is a sequence of code points, and nearly all of them are characters. A character beyond
U+FFFF may be written as two codes, the halves of a surrogate pair. A half that stands alone is a
code point as well, yet no character.

* `isHighSurrogate`, `isLowSurrogate`, `pairCode`: the halves and what they stand for together.
* **`CodePoint`**: a character or a lone half; `WideText`: a text that may have lone halves.
* `WideText.fill`: a text with characters in the place of lone halves.
* **`WideText.halvesMatter`**: whether lone halves show in what is made of a text.
-/

namespace DiskLens

/-! ## Halves -/

/-- The first half of a surrogate pair. -/
def isHighSurrogate (n : Nat) : Bool := 0xD800 ≤ n && n < 0xDC00

/-- The second half of a surrogate pair. -/
def isLowSurrogate (n : Nat) : Bool := 0xDC00 ≤ n && n < 0xE000

/-- Either half of a surrogate pair. -/
def isSurrogate (n : Nat) : Bool := isHighSurrogate n || isLowSurrogate n

/-- The code of the character that a surrogate pair stands for. -/
def pairCode (high low : Nat) : Nat := 0x10000 + (high - 0xD800) * 0x400 + (low - 0xDC00)

/-! ## Code points -/

/-- **A code point**: a character, or a half of a surrogate pair that stands alone. -/
inductive CodePoint
  | char (c : Char)
  | half (code : Nat)
deriving DecidableEq, Repr

namespace CodePoint

/-- The code point with a code. -/
def ofNat (n : Nat) : CodePoint := if isSurrogate n then half n else char (Char.ofNat n)

/-- The code of a lone half. -/
def half? : CodePoint → Option Nat
  | char _ => none
  | half n => some n

/-- A half that stands alone. -/
def isHalf (p : CodePoint) : Bool := p.half?.isSome

/-- The character, or another one in the place of a lone half. -/
def charOr (c : Char) : CodePoint → Char
  | char d => d
  | half _ => c

end CodePoint

/-! ## Texts -/

/-- A text that may have lone halves. -/
abbrev WideText := List CodePoint

namespace WideText

/-- A text of characters. -/
def ofChars (s : List Char) : WideText := s.map .char

/-- A plain text. -/
def ofString (s : String) : WideText := ofChars s.toList

/-- The text has a lone half. -/
def hasHalf (s : WideText) : Bool := s.any CodePoint.isHalf

/-- The text with a character in the place of each lone half. -/
def fillWith (c : Char) (s : WideText) : String := String.ofList (s.map (CodePoint.charOr c))

/-- A character to stand for a lone half. It is no letter and no blank, and no rule asks for it. -/
def filler : Char := '\ufffd'

/-- Another such character. -/
def otherFiller : Char := '\ufffc'

/-- **The text without lone halves**, with another character in the place of each. -/
def fill (s : WideText) : String := s.fillWith filler

/-- **Lone halves show in what is made of a text**: it matters which character stands in their
place. -/
def halvesMatter {α : Type} [DecidableEq α] (s : WideText) (make : String → α) : Bool :=
  make s.fill ≠ make (s.fillWith otherFiller)

end WideText

end DiskLens
