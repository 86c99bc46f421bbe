import DiskLens.Text.CodePoint
import DiskLens.Text.Printable

/-!
# Quoted text

A text as messages show it: between quotes, on one line, with every character visible.

* `quoteMark`: the quote around a text, single unless only the double one avoids an escape.
* `escapeChar`: one character inside the quotes.
* **`quoted`**: the quoted text; `quotedWide`: this for a text that may have lone halves.
-/

namespace DiskLens

/-- A digit of base sixteen, in lower case. -/
def hexDigit (n : Nat) : Char :=
  if n < 10 then Char.ofNat (0x30 + n) else Char.ofNat (0x57 + n)

/-- The last `width` digits of `n` in base sixteen. -/
def hexDigits : Nat → Nat → List Char
  | 0, _ => []
  | width + 1, n => hexDigits width (n / 16) ++ [hexDigit (n % 16)]

/-- The quote to put around a text. -/
def quoteMark (s : List Char) : Char :=
  if s.contains '\'' && !s.contains '"' then '"' else '\''

/-- The shortest of the escapes with two, four and eight digits that holds the code point. -/
def codeEscape (n : Nat) : List Char :=
  if n < 0x100 then '\\' :: 'x' :: hexDigits 2 n
  else if n < 0x10000 then '\\' :: 'u' :: hexDigits 4 n
  else '\\' :: 'U' :: hexDigits 8 n

/-- A character between two `mark`s. -/
def escapeChar (mark c : Char) : List Char :=
  if c = mark || c = '\\' then ['\\', c]
  else if c = '\t' then ['\\', 't']
  else if c = '\n' then ['\\', 'n']
  else if c = '\r' then ['\\', 'r']
  else if isPrintable c then [c]
  else codeEscape c.toNat

/-- A code point between two `mark`s. -/
def escapePoint (mark : Char) : CodePoint → List Char
  | .char c => escapeChar mark c
  | .half n => codeEscape n

/-- The characters of the quoted text. -/
def quotedChars (s : List Char) : List Char :=
  let mark := quoteMark s
  mark :: s.flatMap (escapeChar mark) ++ [mark]

/-- **The text in quotes.** -/
def quoted (s : String) : String := String.ofList (quotedChars s.toList)

/-- The text in quotes, with its lone halves as escapes. -/
def quotedWide (s : WideText) : String :=
  let mark := quoteMark s.fill.toList
  String.ofList (mark :: s.flatMap (escapePoint mark) ++ [mark])

end DiskLens
