import DiskLens.Text.Blank

/-!
# Lines of a document

A document is numbered by its line feeds. Carriage returns in front of a line feed belong to no
line, so a document has the same lines whichever way its line ends are written.

* `pieces`: the parts of a text between two separators.
* **`splitLines`**: the lines of a document, at least one.
* `dropLineFeed`: a text without the line feed at its end.
* `unifyLineEnds`: every way to end a line written as one line feed.
* `isLineBreak`, `lastLine`: all characters that end a printed line, and what follows the last one.
-/

namespace DiskLens

/-- The parts of a text between the occurrences of `sep`. -/
def pieces (sep : Char) : List Char → List (List Char)
  | [] => [[]]
  | c :: cs =>
    if c = sep then [] :: pieces sep cs
    else match pieces sep cs with
      | [] => [[c]]
      | p :: ps => (c :: p) :: ps

/-- **The lines of a document**, without the carriage returns at their ends. -/
def splitLines (text : List Char) : List (List Char) :=
  (pieces '\n' text).map (dropTail (· == '\r'))

/-- The text without one line feed at its end. -/
def dropLineFeed (text : List Char) : List Char :=
  if text.getLast? = some '\n' then text.dropLast else text

/-- Writes CR LF and a lone CR as LF. -/
def unifyLineEnds : List Char → List Char
  | [] => []
  | '\r' :: '\n' :: cs => '\n' :: unifyLineEnds cs
  | c :: cs => (if c = '\r' then '\n' else c) :: unifyLineEnds cs

/-- The characters that end a printed line: the line and page controls, the separators of files,
groups and records, and the Unicode line and paragraph separators. -/
def isLineBreak (c : Char) : Bool :=
  let n := c.toNat
  (0x0A ≤ n && n ≤ 0x0D) || (0x1C ≤ n && n ≤ 0x1E) || n == 0x85 || n == 0x2028 || n == 0x2029

/-- The last line of a text that is printed with a line feed behind it. A carriage return at its end
is part of that line end. -/
def lastLine (text : List Char) : List Char :=
  let body := if text.getLast? = some '\r' then text.dropLast else text
  (body.reverse.takeWhile (!isLineBreak ·)).reverse

end DiskLens
