import DiskLens.Json.Value
import DiskLens.Number.Style
import DiskLens.Text.Quoted

/-!
# Writing JSON

Answers on the command line are indented by two spaces a level, reports of faults have no blanks
between tokens. Only quotes, backslashes and control characters are escaped.

* `textChar`: one character of a text.
* **`Json.pretty`**: the indented text of a value.
* **`Json.compact`**: the text of a value without blanks.
-/

namespace DiskLens

namespace Json

/-- A character inside a text. -/
def textChar (c : Char) : List Char :=
  if c = '"' then ['\\', '"']
  else if c = '\\' then ['\\', '\\']
  else if c = '\x08' then ['\\', 'b']
  else if c = '\t' then ['\\', 't']
  else if c = '\n' then ['\\', 'n']
  else if c = '\x0c' then ['\\', 'f']
  else if c = '\r' then ['\\', 'r']
  else if c.toNat < 0x20 then '\\' :: 'u' :: hexDigits 4 c.toNat
  else [c]

/-- A text in quotes. -/
def textLiteral (s : String) : String :=
  String.ofList ('"' :: s.toList.flatMap textChar ++ ['"'])

/-- The start of a line at a level. -/
def newLine (level : Nat) : String := "\n" ++ String.ofList (List.replicate (2 * level) ' ')

mutual

/-- The text of a value whose first line stands at a level. -/
def prettyAt (level : Nat) : Json → String
  | .null => "null"
  | .bool b => if b then "true" else "false"
  | .int n => toString n
  | .real x => catalogStyle.text x
  | .str s => textLiteral s
  | .arr [] => "[]"
  | .arr (item :: items) =>
    "[" ++ newLine (level + 1) ++ prettyAt (level + 1) item ++ prettyItems (level + 1) items ++
      newLine level ++ "]"
  | .obj [] => "\x7b\x7d"
  | .obj ((key, value) :: entries) =>
    "\x7b" ++ newLine (level + 1) ++ textLiteral key ++ ": " ++ prettyAt (level + 1) value ++
      prettyEntries (level + 1) entries ++ newLine level ++ "\x7d"

/-- The items after the first one. -/
def prettyItems (level : Nat) : List Json → String
  | [] => ""
  | item :: items => "," ++ newLine level ++ prettyAt level item ++ prettyItems level items

/-- The entries after the first one. -/
def prettyEntries (level : Nat) : List (String × Json) → String
  | [] => ""
  | (key, value) :: entries =>
    "," ++ newLine level ++ textLiteral key ++ ": " ++ prettyAt level value ++
      prettyEntries level entries

end

/-- **The indented text of a value.** -/
def pretty (j : Json) : String := prettyAt 0 j

/-! ## Without blanks -/

/-- A code point inside a text. A lone half stands as it is. -/
def textPoint : CodePoint → WideText
  | .char c => .ofChars (textChar c)
  | .half n => [.half n]

/-- A text in quotes that may have lone halves. -/
def wideLiteral (s : WideText) : WideText := .char '"' :: s.flatMap textPoint ++ [.char '"']

mutual

/-- **The text of a value without blanks.** -/
def compact : WideJson → WideText
  | .null => .ofString "null"
  | .bool b => .ofString (if b then "true" else "false")
  | .int n => .ofString (toString n)
  | .real x => .ofString (catalogStyle.text x)
  | .str s => wideLiteral s
  | .arr [] => .ofString "[]"
  | .arr (item :: items) => .char '[' :: compact item ++ compactItems items ++ [.char ']']
  | .obj [] => .ofString "\x7b\x7d"
  | .obj ((key, value) :: entries) =>
    .char '{' :: wideLiteral key ++ .char ':' :: compact value ++ compactEntries entries ++
      [.char '}']

/-- The items after the first one. -/
def compactItems : List WideJson → WideText
  | [] => []
  | item :: items => .char ',' :: compact item ++ compactItems items

/-- The entries after the first one. -/
def compactEntries : List (WideText × WideJson) → WideText
  | [] => []
  | (key, value) :: entries =>
    .char ',' :: wideLiteral key ++ .char ':' :: compact value ++ compactEntries entries

end

end Json

end DiskLens
