import DiskLens.Completion.Cache

/-!
# Catalogs on demand

A service loads its catalog when it is first needed, and again when it is told to. A source that
gave no catalog once is given up for good, with the error of that time; any other failure leaves
the source to be tried again.

* `LogEvent`: what a service reports.
* `LazyCatalog`: a source and what has become of it.
* **`LazyCatalog.get`**, **`LazyCatalog.reload`**: the catalog that is there, or a new one.
-/

namespace DiskLens

/-- What is reported: a catalog was loaded, a source gave none, a file was outlined. -/
inductive LogEvent
  | loaded (count : Nat) (source : CatalogSource)
  | unavailable (e : LoadError)
  | outlined (path : Path) (count : Nat) (type : String)
deriving DecidableEq, Repr

namespace LogEvent

/-- An event as a line, its level first. -/
def line : LogEvent → String
  | loaded count source => "INFO Loaded " ++ toString count ++ " parameters from " ++ source.text
  | unavailable e => "ERROR Parameter catalog unavailable: " ++ e.message
  | outlined path count type =>
    "INFO " ++ path.text ++ ": " ++ toString count ++ " top-level symbols (" ++ type ++ ")"

end LogEvent

/-- **A catalog on demand.** `present` is the catalog that is there and `fault` the error for which
the source was given up; `generation` counts the reloads, `loads` the catalogs loaded so far. -/
structure LazyCatalog where
  source : CatalogSource
  generation : Nat
  loads : Nat
  present : Option LoadedCatalog
  fault : Option LoadError
deriving DecidableEq, Repr

/-- What a request for the catalog gives, what it reports, and what is left after it. -/
structure CatalogReply where
  answer : Except LoadFailure LoadedCatalog
  events : List LogEvent
  next : LazyCatalog

namespace LazyCatalog

/-- A source that nobody has asked for. -/
def of (source : CatalogSource) : LazyCatalog := ⟨source, 0, 0, none, none⟩

/-- A catalog is there. -/
def isLoaded (l : LazyCatalog) : Bool := l.present.isSome

/-- The source is read, unless it was given up. -/
def load (loader : Loader) (l : LazyCatalog) : CatalogReply :=
  match l.fault with
  | some e => ⟨.error (.source e), [], l⟩
  | none =>
    match loadCatalog loader l.source l.generation with
    | .ok c =>
      let found : LoadedCatalog := ⟨l.loads, c⟩
      ⟨.ok found, [.loaded c.size l.source],
        { l with loads := l.loads + 1, present := some found }⟩
    | .error (.source e) => ⟨.error (.source e), [.unavailable e], { l with fault := some e }⟩
    | .error e => ⟨.error e, [], l⟩

/-- **The catalog**, loaded if none is there. -/
def get (loader : Loader) (l : LazyCatalog) : CatalogReply :=
  match l.present with
  | some c => ⟨.ok c, [], l⟩
  | none => l.load loader

/-- **A new catalog**, of the next generation. The one that is there is given up first. -/
def reload (loader : Loader) (l : LazyCatalog) : CatalogReply :=
  load loader { l with generation := l.generation + 1, present := none }

end LazyCatalog

end DiskLens
