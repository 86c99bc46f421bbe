import DiskLens.Catalog.Parameter
import DiskLens.Json.Display

/-!
# Catalogs from JSON

A catalog is an object from names to records. Two older layouts carry the names in the records: an
array of records, and an object with such an array under `parameters`. A record may leave out any
field, and a field may have any type. All that is not text is shown as text, up to some number of
levels. The reader shows names, fields and pages at different points, and has more or less room left
depending on who calls it, so the limits of all three are given with every call.

* `ShapeError`, `ParseError`: why a JSON value gives no parameters.
* **`ShowLimits`**: how many levels of a value can be shown.
* `fieldText?`, `fieldWiki?`: fields as texts, if they can be shown.
* `parameterOf`: the parameter of a record.
* `putParameter`: a later record with the same name takes the place of the earlier one.
* **`parseCatalog`**: the parameters of a catalog, in its order and with distinct names.
-/

namespace DiskLens

/-- Why a JSON value is no catalog. -/
inductive ShapeError
  | entryType (name : String) (type : String)
  | noName (index : Nat)
  | catalogType (type : String)
deriving DecidableEq, Repr

namespace ShapeError

/-- The message names the entry or record at fault. -/
def message : ShapeError → String
  | entryType name type => "Catalog entry " ++ quoted name ++ " must be an object, got " ++ type
  | noName index => "Catalog record " ++ toString index ++ " has no parameter name"
  | catalogType type => "Catalog must be an object or array, got " ++ type

end ShapeError

/-- Why a JSON value gives no parameters: it is no catalog, or a value in it has too many levels to
be shown. -/
inductive ParseError
  | shape (e : ShapeError)
  | tooDeep
deriving DecidableEq, Repr

/-- **How many levels of a value can be shown**: of the name in a record, of a field and of a
reference page. A value of one level can always be shown. -/
structure ShowLimits where
  name : Nat
  field : Nat
  page : Nat
  name_pos : 0 < name
  field_pos : 0 < field
  page_pos : 0 < page
deriving DecidableEq, Repr

namespace ShowLimits

/-- Room for whatever a catalog file may hold: it has at most 1024 levels of arrays and objects, and
one of what is inside them. -/
def ample : ShowLimits := ⟨1025, 1025, 1025, by decide, by decide, by decide⟩

end ShowLimits

section Limits

variable (limits : ShowLimits)

/-! ## Fields -/

/-- A field as text. Logical values are written as in a parameter file. -/
def fieldText? : Json → Option String
  | .null => some ""
  | .bool b => some (if b then ".true." else ".false.")
  | j => j.display? limits.field

/-- The reference pages of a field: one text, or the items of an array that count as given. -/
def fieldWiki? : Json → Option (List String)
  | .str s => some (if s = "" then [] else [s])
  | .arr items => (items.filter Json.isTruthy).mapM (Json.display? limits.page)
  | _ => some []

/-- The description in a record, under either of its two keys. -/
def descriptionField (entries : List (String × Json)) : Json :=
  match (Json.entry? "desc" entries).getD .null with
  | .null => (Json.entry? "description" entries).getD .null
  | j => j

/-- The parameter with some fields, if they can be shown. -/
def parameterOf? (name : String) (entries : List (String × Json)) : Option Parameter := do
  let field (key : String) : Json := (Json.entry? key entries).getD .null
  let type ← fieldText? limits (field "type")
  let default ← fieldText? limits (field "default")
  let unit ← fieldText? limits (field "unit")
  let description ← fieldText? limits (descriptionField entries)
  let wiki ← fieldWiki? limits (field "wiki")
  pure ⟨name, type, default, unit, description, wiki⟩

/-- **The parameter of a record.** -/
def parameterOf (name : String) : Json → Except ParseError Parameter
  | .obj entries =>
    match parameterOf? limits name entries with
    | some p => .ok p
    | none => .error .tooDeep
  | j => .error (.shape (.entryType name j.typeName))

/-! ## Layouts -/

/-- The parameters with one more: it takes the place of the one with its name, or comes last. -/
def putParameter (p : Parameter) : List Parameter → List Parameter
  | [] => [p]
  | q :: qs => if q.name = p.name then p :: qs else q :: putParameter p qs

/-- The name in a record, which counts as given and can be shown. -/
def recordName (i : Nat) (j : Json) : Except ParseError String :=
  match j.get? "name" with
  | none => .error (.shape (.noName i))
  | some name =>
    if !name.isTruthy then .error (.shape (.noName i))
    else match name.display? limits.name with
      | some text => .ok text
      | none => .error .tooDeep

/-- The parameters of an array of records from index `i` on, put to those before. -/
def parseRecords (i : Nat) (done : List Parameter) : List Json → Except ParseError (List Parameter)
  | [] => .ok done
  | j :: js =>
    match recordName limits i j with
    | .error e => .error e
    | .ok name =>
      match parameterOf limits name j with
      | .error e => .error e
      | .ok p => parseRecords (i + 1) (putParameter p done) js

/-- The parameters of the entries of an object, put to those before. -/
def parseEntries (done : List Parameter) :
    List (String × Json) → Except ParseError (List Parameter)
  | [] => .ok done
  | (name, j) :: entries =>
    match parameterOf limits name j with
    | .error e => .error e
    | .ok p => parseEntries (putParameter p done) entries

/-- **The parameters of a catalog.** -/
def parseCatalog : Json → Except ParseError (List Parameter)
  | .arr records => parseRecords limits 0 [] records
  | .obj entries =>
    match Json.entry? "parameters" entries with
    | some (.arr records) => parseRecords limits 0 [] records
    | _ => parseEntries limits [] entries
  | j => .error (.shape (.catalogType j.typeName))

end Limits

end DiskLens
