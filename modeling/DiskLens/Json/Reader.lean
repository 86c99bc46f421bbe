import DiskLens.Json.Numeral
import DiskLens.Json.TextLiteral
import DiskLens.Text.Utf8

/-!
# Reading JSON

Values are read from the start of a text, and what follows them is handed on. Lone halves of
surrogate pairs may stand in texts, and nowhere else.

* `readAtom`: words and numbers.
* `readValue`, `readItems`, `readEntries`: values and what is inside them.
* **`Json.readWide`**: the value of a text.
* `Json.readBytes`: the value of a file.
-/

namespace DiskLens

namespace Json

/-- The blanks between tokens. -/
def isSpace (p : CodePoint) : Bool :=
  p = .char ' ' || p = .char '\t' || p = .char '\n' || p = .char '\r'

/-- The text without blanks at its start. -/
def skipSpace (s : WideText) : WideText := s.dropWhile isSpace

/-- What follows a word at the start of a text. -/
def afterWord? (word : String) (s : WideText) : Option WideText :=
  if (WideText.ofString word).isPrefixOf s then some (s.drop word.length) else none

/-- The values that are words. -/
def words (lenient : Bool) : List (String × WideJson) :=
  [("null", .null), ("true", .bool true), ("false", .bool false)] ++
    if lenient then
      [("NaN", .real .nan), ("Infinity", .real (.infinite false)),
        ("-Infinity", .real (.infinite true))]
    else []

/-- The characters that a number may have. -/
def isNumeralChar (c : Char) : Bool :=
  (asciiDigit? c).isSome || c == '-' || c == '+' || c == '.' || c == 'e' || c == 'E'

/-- The characters at the start of a text that may belong to a number. -/
def numeralChars : WideText → List Char
  | .char c :: rest => if isNumeralChar c then c :: numeralChars rest else []
  | _ => []

/-- A word or a number at the start of a text, and what follows it. -/
def readAtom (dialect : JsonDialect) (s : WideText) : Except JsonError (WideJson × WideText) :=
  match (words dialect.lenient).findSome? fun (word, j) => (afterWord? word s).map (j, ·) with
  | some found => .ok found
  | none =>
    let chars := numeralChars s
    match readNumeral dialect.lenient chars with
    | none => .error .malformed
    | some (n, rest) => do
      let j ← n.value dialect
      pure (j, s.drop (chars.length - rest.length))

mutual

/-- A value at the start of a text, and what follows it. `depth` more levels may be opened; `fuel`
bounds the steps and is at least the length of the text. -/
def readValue (dialect : JsonDialect) (depth : Nat) :
    Nat → WideText → Except JsonError (WideJson × WideText)
  | 0, _ => .error .malformed
  | fuel + 1, s =>
    match skipSpace s with
    | .char '"' :: cs =>
      match readText cs with
      | some (text, rest) => .ok (.str text, rest)
      | none => .error .malformed
    | .char '[' :: cs =>
      if depth = 0 then .error .tooDeep
      else match skipSpace cs with
        | .char ']' :: rest => .ok (.arr [], rest)
        | cs => readItems dialect (depth - 1) [] fuel cs
    | .char '{' :: cs =>
      if depth = 0 then .error .tooDeep
      else match skipSpace cs with
        | .char '}' :: rest => .ok (.obj [], rest)
        | cs => readEntries dialect (depth - 1) [] fuel cs
    | cs => readAtom dialect cs

/-- The items of an array after `done`, and what follows its bracket. -/
def readItems (dialect : JsonDialect) (depth : Nat) (done : List WideJson) :
    Nat → WideText → Except JsonError (WideJson × WideText)
  | 0, _ => .error .malformed
  | fuel + 1, s =>
    match readValue dialect depth fuel s with
    | .error e => .error e
    | .ok (item, rest) =>
      match skipSpace rest with
      | .char ',' :: cs => readItems dialect depth (item :: done) fuel cs
      | .char ']' :: cs => .ok (.arr (item :: done).reverse, cs)
      | _ => .error .malformed

/-- The entries of an object after `done`, and what follows its brace. -/
def readEntries (dialect : JsonDialect) (depth : Nat) (done : List (WideText × WideJson)) :
    Nat → WideText → Except JsonError (WideJson × WideText)
  | 0, _ => .error .malformed
  | fuel + 1, s =>
    match skipSpace s with
    | .char '"' :: cs =>
      match readText cs with
      | none => .error .malformed
      | some (key, rest) =>
        match skipSpace rest with
        | .char ':' :: cs =>
          match readValue dialect depth fuel cs with
          | .error e => .error e
          | .ok (value, rest) =>
            let done := setEntry key value done
            match skipSpace rest with
            | .char ',' :: cs => readEntries dialect depth done fuel cs
            | .char '}' :: cs => .ok (.obj done, cs)
            | _ => .error .malformed
        | _ => .error .malformed
    | _ => .error .malformed

end

/-- **The value of a text.** -/
def readWide (dialect : JsonDialect) (s : WideText) : Except JsonError WideJson := do
  let (j, rest) ← readValue dialect dialect.maxDepth (s.length + 2) s
  if skipSpace rest = [] then pure j else throw .malformed

/-- The value of a file in UTF-8. None of its texts may have lone halves. -/
def readBytes (dialect : JsonDialect) (bytes : Bytes) : Except JsonError Json :=
  match Utf8.decode? bytes with
  | none => .error .malformed
  | some s => do
    let j ← readWide dialect (.ofChars s)
    match j.plain? with
    | some j => pure j
    | none => throw .malformed

end Json

end DiskLens
