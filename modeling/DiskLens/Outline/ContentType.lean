import DiskLens.Outline.LogScan
import DiskLens.Outline.Parameters
import DiskLens.Text.Quoted

/-!
# Outlines by content type

* `ContentType`: parameter files and run logs, with their names in requests.
* `ContentType.ofFileName`: the likely content of a file.
* **`outline`**: the outline of a text of a declared content type.
-/

namespace DiskLens

/-- What a document holds. -/
inductive ContentType
  | parameters
  | log
deriving DecidableEq, Repr

/-- A content type nobody knows. -/
structure UnknownContentType where
  name : String
deriving DecidableEq, Repr

namespace ContentType

/-- All content types, in the order in which messages list them. -/
def all : List ContentType := [parameters, log]

/-- The name of a content type in requests. -/
def name : ContentType → String
  | parameters => "prodimoparam"
  | log => "prodimolog"

/-- The content type with this name. -/
def ofName (name : String) : Except UnknownContentType ContentType :=
  match all.find? (·.name = name) with
  | some type => .ok type
  | none => .error ⟨name⟩

/-- The text ends in `ending`, letters of the Latin alphabet taken without case. Only they fold to
the letters of the endings in use. -/
def endsWithNoCase (ending text : List Char) : Bool :=
  ending.reverse.isPrefixOf (text.reverse.map Char.toLower)

/-- **The likely content of a file**: logs have names that end in `.log` or `.out`. -/
def ofFileName (name : String) : ContentType :=
  if endsWithNoCase ".log".toList name.toList || endsWithNoCase ".out".toList name.toList then log
  else parameters

end ContentType

namespace UnknownContentType

/-- The message for a name in quotes lists the known content types. -/
def messageFor (name : String) : String :=
  let known := ", ".intercalate (ContentType.all.map ContentType.name)
  "Unknown content type " ++ name ++ "; expected one of " ++ known

/-- The message for a name. -/
def message (e : UnknownContentType) : String := messageFor (quoted e.name)

end UnknownContentType

/-- **The outline of a document.** -/
def outline (text : String) (type : ContentType) (token : Option CancelToken) : List Symbol :=
  match type with
  | .parameters => parameterOutline text token
  | .log => logOutline text token

/-- The outline of a document whose content type is given by name. -/
def outlineNamed (text name : String) (token : Option CancelToken) :
    Except UnknownContentType (List Symbol) := do
  let type ← ContentType.ofName name
  pure (outline text type token)

end DiskLens
