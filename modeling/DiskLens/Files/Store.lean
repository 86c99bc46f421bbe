import DiskLens.Files.Path
import DiskLens.Text.Utf8

/-!
# Reading files

* `FileError`: why a file cannot be used; `PathError`: this for a path, or a path that names no file
  at all.
* **`Store`**: what reading gives for each path.
-/

namespace DiskLens

/-- Why a file cannot be read or written. -/
inductive FileError
  | notFound
  | alreadyThere
  | notDirectory
  | isDirectory
  | nameTooLong
  | denied
deriving DecidableEq, Repr

namespace FileError

/-- The number of an error. -/
def code : FileError → Nat
  | notFound => 2
  | alreadyThere => 17
  | notDirectory => 20
  | isDirectory => 21
  | nameTooLong => 36
  | denied => 13

/-- An error in words. -/
def words : FileError → String
  | notFound => "No such file or directory"
  | alreadyThere => "File exists"
  | notDirectory => "Not a directory"
  | isDirectory => "Is a directory"
  | nameTooLong => "File name too long"
  | denied => "Permission denied"

end FileError

/-- Why a path cannot be used: an error of the files, or a NUL in the path. -/
inductive PathError
  | file (e : FileError) (path : Path)
  | nullByte
deriving DecidableEq, Repr

namespace PathError

/-- The message gives the number, the words and the path. -/
def message : PathError → String
  | file e path => "[Errno " ++ toString e.code ++ "] " ++ e.words ++ ": " ++ quoted path.text
  | nullByte => "embedded null byte"

end PathError

/-- What comes of using a path. Without a NUL in it, what the files say of it. -/
def Path.attempt {α : Type} (p : Path) (result : Except FileError α) : Except PathError α :=
  if p.text.contains '\x00' then .error .nullByte
  else result.mapError (PathError.file · p)

/-- **What reading gives for each path.** -/
abbrev Store := Path → Except PathError Bytes

end DiskLens
