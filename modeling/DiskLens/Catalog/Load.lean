import DiskLens.Catalog.BuiltIn
import DiskLens.Catalog.Parse
import DiskLens.Files.Store
import DiskLens.Json.Reader

/-!
# Loading catalogs

A catalog is read from a file, or is the one that comes with the program. The latter is data of the
program itself: it is taken as fixed, and loading it reads no file and cannot fail.

* `Catalog`: parameters and the number of the load that made them.
* `CatalogSource`: the built-in parameters or a file.
* **`Loader`**: what a load works with, the files and the limits of its caller.
* `LoadError`, `LoadFailure`: why a source gives no catalog, and why loading fails.
* **`loadCatalog`**: the catalog of a source.
-/

namespace DiskLens

/-! ## Catalogs -/

/-- **A catalog.** The generation tells the loads of one source apart. -/
structure Catalog where
  parameters : List Parameter
  generation : Int
deriving DecidableEq, Repr

namespace Catalog

/-- How many parameters a catalog has. -/
def size (c : Catalog) : Nat := c.parameters.length

/-- The names of the parameters, in the order of the source. -/
def names (c : Catalog) : List String := c.parameters.map (·.name)

/-- The parameter with a name. -/
def lookup (c : Catalog) (name : String) : Option Parameter := c.parameters.find? (·.name = name)

/-- A catalog in one line. -/
def summary (c : Catalog) : String :=
  "ParameterCatalog(" ++ toString c.size ++ " entries, generation=" ++ toString c.generation ++ ")"

end Catalog

/-! ## Sources -/

/-- Where a catalog comes from; it may be left blank. -/
inductive CatalogSource
  | builtIn
  | file (path : Path)
  | blank
deriving DecidableEq, Repr

namespace CatalogSource

/-- A source in messages. -/
def text : CatalogSource → String
  | builtIn => "<bundled>"
  | file path => path.text
  | blank => "[]"

end CatalogSource

/-- Why a source gives no catalog: the file cannot be read, it is not JSON, or the JSON value is no
catalog. -/
inductive LoadError
  | unreadable (path : Path) (e : FileError)
  | malformed (path : Path) (e : JsonError)
  | shape (e : ShapeError)
deriving DecidableEq, Repr

namespace LoadError

/-- The message says what went wrong with which file. -/
def message : LoadError → String
  | unreadable path e =>
    "Cannot read parameter catalog " ++ path.text ++ ": " ++ (PathError.file e path).message
  | malformed path e => "Malformed parameter catalog " ++ path.text ++ ": " ++ e.message
  | shape e => e.message

end LoadError

/-- Why loading fails. A path with a NUL and a blank source are faults of the caller and not of the
source, and a value with too many levels stops the reader. -/
inductive LoadFailure
  | source (e : LoadError)
  | nullByte
  | blankSource
  | tooDeep
deriving DecidableEq, Repr

namespace LoadFailure

/-- The message of the cause. -/
def message : LoadFailure → String
  | source e => e.message
  | nullByte => PathError.message .nullByte
  | blankSource => "'list' object has no attribute 'read_bytes'"
  | tooDeep => "maximum recursion depth exceeded while getting the repr of an object"

end LoadFailure

namespace ParseError

/-- The failure to load that a cause amounts to. -/
def failure : ParseError → LoadFailure
  | shape e => .source (.shape e)
  | tooDeep => .tooDeep

end ParseError

/-! ## Loading -/

/-- **What a load works with**: the files that can be read, and the limits of whoever asks for the
catalog. -/
structure Loader where
  read : Store
  limits : ShowLimits

/-- The parameters in the bytes of a file. -/
def catalogFromBytes (limits : ShowLimits) (path : Path) (bytes : Bytes) :
    Except LoadFailure (List Parameter) :=
  match Json.readBytes .catalog bytes with
  | .error e => .error (.source (.malformed path e))
  | .ok j => (parseCatalog limits j).mapError ParseError.failure

/-- The parameters of a source. -/
def loadParameters (loader : Loader) : CatalogSource → Except LoadFailure (List Parameter)
  | .builtIn => .ok builtInParameters
  | .file path =>
    match loader.read path with
    | .error .nullByte => .error .nullByte
    | .error (.file e path) => .error (.source (.unreadable path e))
    | .ok bytes => catalogFromBytes loader.limits path bytes
  | .blank => .error .blankSource

/-- **The catalog of a source.** -/
def loadCatalog (loader : Loader) (source : CatalogSource) (generation : Int) :
    Except LoadFailure Catalog :=
  (loadParameters loader source).map (⟨·, generation⟩)

end DiskLens
