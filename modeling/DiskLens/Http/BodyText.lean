import DiskLens.Text.Units

/-!
# The text of a body

A body is bytes, and nothing says in which encoding its text is. A text in JSON starts with ASCII
characters, so zeros among the first bytes tell how wide the units are and which byte comes first.

* `BodyEncoding`: the encodings.
* `BodyEncoding.of`: the encoding that some bytes show.
* **`bodyText?`**: the text of a body.
-/

namespace DiskLens

/-- How the bytes of a body are to be read. -/
inductive BodyEncoding
  | utf8
  | units16 (order : ByteOrder)
  | units32 (order : ByteOrder)
deriving DecidableEq, Repr

namespace BodyEncoding

/-- **The encoding that some bytes show.** Two bytes may be one unit, and of three or one nothing is
known. -/
def of : Bytes → BodyEncoding
  | [a, b] =>
    if a = 0 then units16 .big
    else if b = 0 then units16 .little
    else utf8
  | a :: b :: c :: d :: _ =>
    if a = 0 then if b = 0 then units32 .big else units16 .big
    else if b = 0 then if c = 0 ∧ d = 0 then units32 .little else units16 .little
    else utf8
  | _ => utf8

end BodyEncoding

/-- The text without a byte order mark at its start. -/
def dropByteOrderMark : List Char → List Char
  | '\ufeff' :: cs => cs
  | cs => cs

/-- **The text of a body**, which is given as if its bytes were in UTF-8. A byte order mark is no
part of a text in UTF-8. -/
def bodyText? (body : String) : Option WideText :=
  let bytes := Utf8.encode body.toList
  match BodyEncoding.of bytes with
  | .utf8 => some (.ofChars (dropByteOrderMark body.toList))
  | .units16 order => decodeUnits16? order bytes
  | .units32 order => decodeUnits32? order bytes

end DiskLens
