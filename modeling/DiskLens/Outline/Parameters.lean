import DiskLens.Outline.Cancellation
import DiskLens.Outline.Symbol

/-!
# Outlines of parameter files

Parameter files put their entries under headers such as `------ disk structure ------`: dashes, a
space, a title without blanks at its ends, a space, dashes. A line feed may end the line. The
outline has one flat symbol for each header, in document order.

* `openFence?`, `closeFence?`: what is left of a line after its first fence, and before its last.
* **`blockTitle?`**: the title of a header line.
* `blockSymbol?`: the symbol of one line.
* **`parameterOutline`**: the outline of a parameter file.
-/

namespace DiskLens

/-! ## Block headers -/

/-- What follows one or more dashes and a space. -/
def openFence? (s : List Char) : Option (List Char) :=
  match s with
  | '-' :: cs =>
    match cs.dropWhile (· == '-') with
    | ' ' :: rest => some rest
    | _ => none
  | _ => none

/-- What stands before a space and one or more dashes that end the text. -/
def closeFence? (s : List Char) : Option (List Char) := (openFence? s.reverse).map List.reverse

/-- A title is not empty, stays on one line and has no blank at either end. -/
def isTitle (t : List Char) : Bool :=
  !t.contains '\n' && t.head?.any (!isBlank ·) && t.getLast?.any (!isBlank ·)

/-- **The title of a header line.** -/
def blockTitle? (line : List Char) : Option (List Char) := do
  let rest ← openFence? (dropLineFeed line)
  let title ← closeFence? rest
  if isTitle title then pure title else none

/-! ## Outlines -/

/-- The symbol of a header line. -/
def blockSymbol? (n : Nat) (line : List Char) : Option Symbol :=
  (blockTitle? line).map fun title =>
    .leaf (String.ofList title) "block" .block ⟨⟨n, 0⟩, ⟨n, line.length⟩⟩

/-- The symbols so far and the one of the next line. -/
def blockStep (symbols : List Symbol) (n : Nat) (line : List Char) : List Symbol :=
  symbols ++ (blockSymbol? n line).toList

/-- The outline of a parameter file and the token after the scan. -/
def parameterScan (text : List Char) (token : Option CancelToken) :
    List Symbol × Option CancelToken :=
  let (symbols, token) := scanLines blockStep token [] 0 (splitLines text)
  (symbols.getD [], token)

/-- **The outline of a parameter file**, empty if the scan was cancelled. -/
def parameterOutline (text : String) (token : Option CancelToken) : List Symbol :=
  (parameterScan text.toList token).1

end DiskLens
