import DiskLens.Json.Value
import DiskLens.Text.Lines

/-!
# Outline symbols

The nodes of a document outline. Lines and characters are counted from zero, characters as code
points.

* `Position`, `Range`: places in a document; both coordinates of a position are at least zero.
* **`Symbol`**: a titled range with the symbols below it.
* **`Symbol.record`**: a symbol with those below it as JSON.
-/

namespace DiskLens

/-- A place in a document. -/
structure Position where
  line : Nat
  character : Nat
deriving DecidableEq, Repr

/-- A position with a negative coordinate. -/
structure PositionError where
  line : Int
  character : Int
deriving DecidableEq, Repr

namespace PositionError

/-- The message names both coordinates. -/
def message (e : PositionError) : String :=
  s!"position must be non-negative, got ({e.line}, {e.character})"

end PositionError

namespace Position

/-- The position with these coordinates, if neither is negative. -/
def of (line character : Int) : Except PositionError Position :=
  if line < 0 ∨ character < 0 then .error ⟨line, character⟩
  else .ok ⟨line.toNat, character.toNat⟩

end Position

/-- The part of a document from one position to another. -/
structure Range where
  start : Position
  stop : Position
deriving DecidableEq, Repr

namespace Range

/-- A whole line of a document. -/
def ofLine (lineNo : Int) (line : List Char) : Except PositionError Range := do
  let start ← Position.of lineNo 0
  let stop ← Position.of lineNo line.length
  pure ⟨start, stop⟩

/-- The start of a line, with no width. -/
def empty (lineNo : Int) : Except PositionError Range := do
  let place ← Position.of lineNo 0
  pure ⟨place, place⟩

end Range

/-- What a symbol stands for: a block of a parameter file, or a stage of a run, a phase of its
initialisation, a system set up in a phase. -/
inductive SymbolKind
  | block
  | stage
  | phase
  | system
deriving DecidableEq, Repr

namespace SymbolKind

/-- The name of a kind in answers. -/
def name : SymbolKind → String
  | block => "block"
  | stage => "section"
  | phase => "phase"
  | system => "variable"

end SymbolKind

/-- **A node of an outline.** -/
structure Symbol where
  title : String
  detail : String
  kind : SymbolKind
  range : Range
  children : List Symbol
deriving Repr

namespace Symbol

/-- A symbol with nothing below it. -/
def leaf (title detail : String) (kind : SymbolKind) (range : Range) : Symbol :=
  ⟨title, detail, kind, range, []⟩

/-- The symbol with one more below it, at the end. -/
def addChild (s child : Symbol) : Symbol := { s with children := s.children ++ [child] }

mutual

/-- The texts of a symbol and of those below it. -/
def texts : Symbol → List String
  | ⟨title, detail, _, _, children⟩ => title :: detail :: allTexts children

/-- The texts of some symbols and of those below them. -/
def allTexts : List Symbol → List String
  | [] => []
  | s :: symbols => texts s ++ allTexts symbols

end

end Symbol

/-! ## Symbols as JSON -/

/-- A position as a JSON record. -/
def Position.record (p : Position) : Json :=
  .obj [("line", .int p.line), ("character", .int p.character)]

/-- A range as a JSON record. -/
def Range.record (r : Range) : Json :=
  .obj [("start", r.start.record), ("end", r.stop.record)]

mutual

/-- **A symbol as a JSON record**, with the records of those below it. -/
def Symbol.record : Symbol → Json
  | ⟨title, detail, kind, range, children⟩ =>
    .obj [("title", .str title), ("detail", .str detail), ("kind", .str kind.name),
      ("range", range.record), ("children", .arr (Symbol.records children))]

/-- The records of some symbols. -/
def Symbol.records : List Symbol → List Json
  | [] => []
  | s :: symbols => Symbol.record s :: Symbol.records symbols

end

end DiskLens
