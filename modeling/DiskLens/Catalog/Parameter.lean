import DiskLens.Json.Value
import DiskLens.Text.Blank

/-!
# Parameters

* **`Parameter`**: what the reference says about one parameter. All of it is text; what the
  reference leaves out is empty.
* `Parameter.hasUnit`: the parameter is not dimensionless.
* `Parameter.record`: the parameter as a JSON record.
-/

namespace DiskLens

/-- **The reference entry of a parameter.** -/
structure Parameter where
  name : String
  type : String
  default : String
  unit : String
  description : String
  wiki : List String
deriving DecidableEq, Repr

namespace Parameter

/-- The unit that the reference writes for parameters without one. -/
def noUnit : String := "-"

/-- The parameter has a unit: neither blank nor a dash. -/
def hasUnit (p : Parameter) : Bool :=
  let unit := trim p.unit.toList
  unit ≠ [] && unit ≠ noUnit.toList

/-- **The parameter as a record**, in the layout in which a catalog is read. -/
def record (p : Parameter) : Json :=
  .obj [("name", .str p.name), ("type", .str p.type), ("default", .str p.default),
    ("unit", .str p.unit), ("desc", .str p.description), ("wiki", .arr (p.wiki.map .str))]

end Parameter

end DiskLens
