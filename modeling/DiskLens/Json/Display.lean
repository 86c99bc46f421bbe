import DiskLens.Json.Value
import DiskLens.Number.Style
import DiskLens.Text.Quoted

/-!
# JSON values as plain text

Catalog fields are texts. A value of another type is shown as a literal of the tool's own notation:
quoted texts, `True`, `None`, lists in brackets. How many levels of a value can be shown depends on
who asks, so the limit is given; a value with more levels is not shown.

* `Json.literal`: a value as a literal.
* `Json.levels`: how many levels of values a value has.
* **`Json.display?`**: a value as plain text; a text stands for itself.
-/

namespace DiskLens

namespace Json

mutual

/-- A value as a literal. -/
def literal : Json → String
  | .null => "None"
  | .bool b => if b then "True" else "False"
  | .int n => toString n
  | .real x => catalogStyle.text x
  | .str s => quoted s
  | .arr [] => "[]"
  | .arr (item :: items) => "[" ++ literal item ++ literalItems items ++ "]"
  | .obj [] => "\x7b\x7d"
  | .obj ((key, value) :: entries) =>
    "\x7b" ++ quoted key ++ ": " ++ literal value ++ literalEntries entries ++ "\x7d"

/-- The items after the first one. -/
def literalItems : List Json → String
  | [] => ""
  | item :: items => ", " ++ literal item ++ literalItems items

/-- The entries after the first one. -/
def literalEntries : List (String × Json) → String
  | [] => ""
  | (key, value) :: entries =>
    ", " ++ quoted key ++ ": " ++ literal value ++ literalEntries entries

end

mutual

/-- How many levels of values a value has. A key is on the level of its value. -/
def levels : Json → Nat
  | .arr items => levelsOfItems items + 1
  | .obj entries => levelsOfEntries entries + 1
  | _ => 1

/-- The most levels of some items. -/
def levelsOfItems : List Json → Nat
  | [] => 0
  | item :: items => max (levels item) (levelsOfItems items)

/-- The most levels of some entries. -/
def levelsOfEntries : List (String × Json) → Nat
  | [] => 0
  | (_, value) :: entries => max (levels value) (levelsOfEntries entries)

end

/-- **A value as plain text**, unless it has more levels than `limit`. -/
def display? (limit : Nat) : Json → Option String
  | .str s => some s
  | j => if j.levels ≤ limit then some j.literal else none

end Json

end DiskLens
