import DiskLens.Number.Binary64
import DiskLens.Text.CodePoint

/-!
# JSON values

Catalogs, request bodies and answers are JSON values. The entries of an object keep their order and
have distinct keys. The texts of a request body may have lone halves of surrogate pairs.

* **`JsonOf`**: the values over a type of texts; `Json` and `WideJson` are those in use.
* `JsonOf.any`: what stands somewhere in a value.
* `JsonOf.mapText`, `JsonOf.withoutKeys`: values with other texts and without some entries.
* `Json.setEntry`: an entry of an object, written over the one with the same key.
* `Json.get?`: the value under a key.
* `Json.isTruthy`: the values that count as given.
-/

namespace DiskLens

/-- **A JSON value** with texts in `τ`. -/
inductive JsonOf (τ : Type)
  | null
  | bool (b : Bool)
  | int (n : Int)
  | real (x : Binary64)
  | str (s : τ)
  | arr (items : List (JsonOf τ))
  | obj (entries : List (τ × JsonOf τ))
deriving Repr

/-- A JSON value with plain texts. -/
abbrev Json := JsonOf String

/-- A JSON value whose texts may have lone halves. -/
abbrev WideJson := JsonOf WideText

/-! ## All of a value -/

namespace JsonOf

variable {τ σ : Type}

mutual

/-- The value or some value inside it is in `p`. -/
def any (p : JsonOf τ → Bool) : JsonOf τ → Bool
  | arr items => p (arr items) || anyItem p items
  | obj entries => p (obj entries) || anyEntry p entries
  | j => p j

/-- Some value in some items is in `p`. -/
def anyItem (p : JsonOf τ → Bool) : List (JsonOf τ) → Bool
  | [] => false
  | j :: items => j.any p || anyItem p items

/-- Some value in some entries is in `p`. -/
def anyEntry (p : JsonOf τ → Bool) : List (τ × JsonOf τ) → Bool
  | [] => false
  | (_, j) :: entries => j.any p || anyEntry p entries

end

/-- Some text in a value, be it a key, is in `p`. -/
def anyText (p : τ → Bool) (j : JsonOf τ) : Bool :=
  j.any fun
    | str s => p s
    | obj entries => entries.any fun (key, _) => p key
    | _ => false

/-- Some number in a value is infinite or no number. -/
def holdsNonFinite (j : JsonOf τ) : Bool :=
  j.any fun
    | real x => !x.isFinite
    | _ => false

mutual

/-- The value with other texts. -/
def mapText (f : τ → σ) : JsonOf τ → JsonOf σ
  | null => null
  | bool b => bool b
  | int n => int n
  | real x => real x
  | str s => str (f s)
  | arr items => arr (mapItems f items)
  | obj entries => obj (mapEntries f entries)

/-- Items with other texts. -/
def mapItems (f : τ → σ) : List (JsonOf τ) → List (JsonOf σ)
  | [] => []
  | j :: items => j.mapText f :: mapItems f items

/-- Entries with other texts. -/
def mapEntries (f : τ → σ) : List (τ × JsonOf τ) → List (σ × JsonOf σ)
  | [] => []
  | (key, j) :: entries => (f key, j.mapText f) :: mapEntries f entries

end

mutual

/-- The value without the entries of objects whose key is in `p`, wherever they stand. -/
def withoutKeys (p : τ → Bool) : JsonOf τ → JsonOf τ
  | arr items => arr (itemsWithoutKeys p items)
  | obj entries => obj (entriesWithoutKeys p entries)
  | j => j

/-- Items without the entries whose key is in `p`. -/
def itemsWithoutKeys (p : τ → Bool) : List (JsonOf τ) → List (JsonOf τ)
  | [] => []
  | j :: items => j.withoutKeys p :: itemsWithoutKeys p items

/-- Entries without those whose key is in `p`. -/
def entriesWithoutKeys (p : τ → Bool) : List (τ × JsonOf τ) → List (τ × JsonOf τ)
  | [] => []
  | (key, j) :: entries =>
    if p key then entriesWithoutKeys p entries
    else (key, j.withoutKeys p) :: entriesWithoutKeys p entries

end

end JsonOf

namespace WideJson

/-- The value with characters in the place of lone halves. -/
def fill (j : WideJson) : Json := j.mapText WideText.fill

/-- The value, if it has no lone halves. -/
def plain? (j : WideJson) : Option Json := if j.anyText WideText.hasHalf then none else some j.fill

end WideJson

/-! ## Entries -/

namespace Json

/-- The entries with a value under a key: a key that is there keeps its place, a new one comes
last. -/
def setEntry {κ α : Type} [DecidableEq κ] (key : κ) (value : α) : List (κ × α) → List (κ × α)
  | [] => [(key, value)]
  | (k, v) :: entries =>
    if k = key then (k, value) :: entries else (k, v) :: setEntry key value entries

/-- The value under a key among some entries. -/
def entry? {κ α : Type} [DecidableEq κ] (key : κ) (entries : List (κ × α)) : Option α :=
  (entries.find? (·.1 = key)).map (·.2)

/-- The value under a key of an object. -/
def get? (key : String) : Json → Option Json
  | .obj entries => entry? key entries
  | _ => none

/-- The value under a key, `null` if there is none. -/
def getD (key : String) (j : Json) : Json := (j.get? key).getD .null

/-! ## Plain values -/

/-- Null, false, zero and empty texts, arrays and objects count as not given. -/
def isTruthy : Json → Bool
  | .null => false
  | .bool b => b
  | .int n => n ≠ 0
  | .real x => !x.isZero
  | .str s => s ≠ ""
  | .arr items => !items.isEmpty
  | .obj entries => !entries.isEmpty

/-- The name of a value's type in messages. -/
def typeName : Json → String
  | .null => "NoneType"
  | .bool _ => "bool"
  | .int _ => "int"
  | .real _ => "float"
  | .str _ => "str"
  | .arr _ => "list"
  | .obj _ => "dict"

end Json

end DiskLens
