import DiskLens.Text.Lines
import DiskLens.Text.Quoted

/-!
# Paths

A path is a root and the names below it. Repeated and trailing slashes and `.` carry no meaning and
are dropped when a path is read; `..` is kept, because what it means depends on the files.

* `PathRoot`: no root, one slash, or exactly two.
* **`Path`**: a path; `Path.ofText` reads one and `Path.text` writes it.
-/

namespace DiskLens

/-- Where a path starts: at the working directory, at the root, or at the root written with exactly
two slashes, which is kept apart. -/
inductive PathRoot
  | relative
  | single
  | double
deriving DecidableEq, Repr

namespace PathRoot

/-- The slashes of a root. -/
def text : PathRoot → String
  | relative => ""
  | single => "/"
  | double => "//"

end PathRoot

/-- **A path.** -/
structure Path where
  root : PathRoot
  names : List String
deriving DecidableEq, Repr

namespace Path

/-- The root of a written path. -/
def rootOf (s : List Char) : PathRoot :=
  match (s.takeWhile (· == '/')).length with
  | 0 => .relative
  | 2 => .double
  | _ => .single

/-- The names in a written path. -/
def namesOf (s : List Char) : List String :=
  ((pieces '/' s).map String.ofList).filter fun name => name ≠ "" ∧ name ≠ "."

/-- A path from its text. -/
def ofText (s : String) : Path := ⟨rootOf s.toList, namesOf s.toList⟩

/-- The text of a path; the working directory is `.`. -/
def text (p : Path) : String :=
  if p.root = .relative ∧ p.names = [] then "."
  else p.root.text ++ "/".intercalate p.names

/-- The last name, empty if there is none. -/
def name (p : Path) : String := p.names.getLastD ""

/-- The path without its last name. A path without names stays. -/
def parent (p : Path) : Path := { p with names := p.names.dropLast }

/-- The path with more names below it. -/
def below (p : Path) (names : List String) : Path := { p with names := p.names ++ names }

end Path

end DiskLens
