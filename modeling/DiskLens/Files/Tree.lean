import DiskLens.Files.Store

/-!
# Files in memory

Files and directories around a working directory, and how a path leads to them.

* `Place`: where a file or a directory is.
* **`FileTree`**: the files and directories by their places.
* **`FileTree.read`**: the files as a store.
* `FileEdit`, **`FileTree.editAll`**: changes of the files.
-/

namespace DiskLens

/-- A place: names from the working directory on, with `..` only at the start, or `/` and names from
the root on. -/
abbrev Place := List String

namespace Place

/-- The working directory, those above it and the root are always there. -/
def isGiven (place : Place) : Bool := place.all (· == "..") || place == ["/"]

/-- The directory above a place. The root is above itself. -/
def above (place : Place) : Place :=
  if place = ["/"] then place
  else if place.isGiven then place ++ [".."]
  else place.dropLast

/-- Where a path starts. -/
def start (p : Path) : Place := if p.root = .relative then [] else ["/"]

end Place

/-- **Files and directories.** -/
structure FileTree where
  files : List (Place × Bytes)
  directories : List Place
deriving DecidableEq, Repr

namespace FileTree

/-- The empty working directory. -/
def empty : FileTree := ⟨[], []⟩

/-- The content of a file. -/
def file? (t : FileTree) (place : Place) : Option Bytes :=
  (t.files.find? (·.1 = place)).map (·.2)

/-- A directory: one that is always there, or one that was made. -/
def isDirectory (t : FileTree) (place : Place) : Bool :=
  place.isGiven || t.directories.contains place

/-- There is a file or a directory. -/
def holds (t : FileTree) (place : Place) : Bool := t.isDirectory place || (t.file? place).isSome

/-- The tree without a file. -/
def remove (t : FileTree) (place : Place) : FileTree :=
  { t with files := t.files.filter (·.1 ≠ place) }

/-- The tree with a file. -/
def put (t : FileTree) (place : Place) (content : Bytes) : FileTree :=
  { t with files := (place, content) :: (t.remove place).files }

/-! ## Following a path -/

/-- The longest name that a file can have, in bytes. -/
def maxName : Nat := 255

/-- The longest path that can be followed, in bytes. -/
def maxPath : Nat := 4095

/-- The place that a name leads to, whether or not anything is there. A name leads on only from a
directory. -/
def enter (t : FileTree) (place : Place) (name : String) : Except FileError Place :=
  if !t.isDirectory place then .error .notDirectory
  else if maxName < name.utf8ByteSize then .error .nameTooLong
  else .ok (if name = ".." then place.above else place ++ [name])

/-- One name further along a path, to what is there. -/
def walk (t : FileTree) (place : Place) (name : String) : Except FileError Place := do
  let next ← t.enter place name
  if t.holds next then pure next else throw .notFound

/-- The place that a path leads to. What is at its last name need not be there. -/
def target (t : FileTree) (p : Path) : Except FileError Place :=
  if maxPath < p.text.utf8ByteSize then .error .nameTooLong
  else do
    let directory ← p.names.dropLast.foldlM t.walk (Place.start p)
    match p.names.getLast? with
    | none => pure directory
    | some name => t.enter directory name

/-- The place of what a path leads to. -/
def locate (t : FileTree) (p : Path) : Except FileError Place := do
  let place ← t.target p
  if t.holds place then pure place else throw .notFound

/-- The place and the content of the file that a path leads to. -/
def content (t : FileTree) (p : Path) : Except FileError (Place × Bytes) := do
  let place ← t.locate p
  match t.file? place with
  | some bytes => pure (place, bytes)
  | none => throw .isDirectory

/-- A path leads to a directory. -/
def leadsToDirectory (t : FileTree) (p : Path) : Bool :=
  match t.locate p with
  | .ok place => t.isDirectory place
  | .error _ => false

/-- **The files as a store.** -/
def read (t : FileTree) : Store := fun p => p.attempt ((t.content p).map (·.2))

end FileTree

/-! ## Edits -/

/-- A change of a file: its new content, or `none` if it is removed. -/
structure FileEdit where
  path : Path
  content : Option Bytes
deriving DecidableEq, Repr

/-- A change of the files that may fail. What was done before a failure stays. -/
abbrev TreeChange := ExceptT PathError (StateM FileTree) Unit

namespace TreeChange

/-- A directory is made where nothing is yet. -/
def makeDirectory (p : Path) : TreeChange := do
  let t ← get
  let place ← p.attempt (t.target p)
  if t.holds place then throw (.file .alreadyThere p)
  set { t with directories := place :: t.directories }

/-- A directory is made, or is there already. -/
def needDirectory (p : Path) : TreeChange :=
  try makeDirectory p
  catch e => do
    unless (← get).leadsToDirectory p do throw e

/-- A directory is made, or is there already; so are up to so many directories above it. -/
def needDirectories (p : Path) : Nat → TreeChange
  | 0 => needDirectory p
  | depth + 1 =>
    try needDirectory p
    catch
      | .file .notFound _ => do
        needDirectories p.parent depth
        needDirectory p
      | e => throw e

/-- A file is written; directories above it are made. -/
def write (p : Path) (content : Bytes) : TreeChange := do
  needDirectories p.parent p.names.length
  let t ← get
  let place ← p.attempt (t.target p)
  if t.isDirectory place then throw (.file .isDirectory p)
  set (t.put place content)

/-- A file that is there is removed. -/
def remove (p : Path) : TreeChange := do
  let t ← get
  let (place, _) ← p.attempt (t.content p)
  set (t.remove place)

end TreeChange

namespace FileEdit

/-- What an edit does. -/
def change (e : FileEdit) : TreeChange :=
  match e.content with
  | some bytes => .write e.path bytes
  | none => .remove e.path

end FileEdit

namespace FileTree

/-- **The files after some edits**, up to the first one that fails, and why it does. -/
def editAll (t : FileTree) (edits : List FileEdit) : Except PathError Unit × FileTree :=
  StateT.run (ExceptT.run (edits.forM FileEdit.change)) t

end FileTree

end DiskLens
