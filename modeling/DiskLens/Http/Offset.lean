import DiskLens.Json.Reader

/-!
# Offsets in request bodies

An offset may be given as any JSON value that stands for a whole number: an integer, a number
without a fraction, a logical value, or a text with digits.

* `OffsetFault`: what may be wrong with an offset.
* `offsetOfText`: offsets in texts.
* **`readOffset`**: the offset of a value.
-/

namespace DiskLens

/-- What may be wrong with an offset. -/
inductive OffsetFault
  | wrongType
  | unreadable
  | tooLarge
  | fraction
  | notFinite
  | negative
deriving DecidableEq, Repr

/-- What follows the zeros at the start of a number; underscores among them count as zeros. A minus
ends them as another digit does. The last zero stays if neither follows. -/
def afterZeros? (last : Char) : List Char → Option (List Char)
  | [] => some [last]
  | c :: cs =>
    if c = '0' ∨ c = '_' then afterZeros? c cs
    else if c = '.' then some (last :: c :: cs)
    else if ('1' ≤ c ∧ c ≤ '9') ∨ c = '-' then some (c :: cs)
    else none

/-- Digits without the zeros at their start. -/
def dropZeros? : List Char → Option (List Char)
  | [] => none
  | c :: cs =>
    if c = '0' then afterZeros? c cs
    else if '1' ≤ c ∧ c ≤ '9' then some (c :: cs)
    else none

/-- The number without zeros at its start. A minus before them stays. -/
def dropLeadingZeros? : List Char → Option (List Char)
  | '-' :: cs => (dropZeros? cs).map ('-' :: ·)
  | cs => dropZeros? cs

/-- The number without a point and zeros at its end. -/
def dropZeroFraction (s : List Char) : List Char :=
  match s.dropWhile (· != '.') with
  | '.' :: '0' :: zeros => if zeros.all (· == '0') then s.takeWhile (· != '.') else s
  | _ => s

/-- Two characters stand side by side somewhere. -/
def hasPair (a b : Char) : List Char → Bool
  | c :: d :: rest => (c == a && d == b) || hasPair a b (d :: rest)
  | _ => false

/-- The number without the underscores between its digits. -/
def dropUnderscores (s : List Char) : List Char :=
  if s.head? = some '_' ∨ s.getLast? = some '_' ∨ hasPair '_' '_' s then s
  else s.filter (· != '_')

/-- A plus at the start is dropped; no minus may follow it. -/
def dropPlus? : List Char → Option (List Char)
  | '+' :: '-' :: _ => none
  | '+' :: cs => some cs
  | cs => some cs

/-- The number that a text is, with nothing around it. How many digits it starts with is looked at
before what follows them. -/
def plainNumber (s : List Char) : Except OffsetFault Int :=
  let (negative, digits) := Json.takeMinus s
  match Json.readWhole false digits with
  | none => .error .unreadable
  | some (whole, rest) =>
    if maxDigits < whole.length then .error .tooLarge
    else if rest ≠ [] then .error .unreadable
    else .ok (Json.Numeral.toInt ⟨negative, whole, none, none⟩)

/-- A text as a plain number: without the blanks around it, a plus, zeros before it, `.0` behind it
and single underscores between its digits. -/
def cleanNumber? (s : List Char) : Option (List Char) := do
  let s ← dropPlus? (trimWith isWhiteSpace s)
  let s ← dropLeadingZeros? s
  pure (dropUnderscores (dropZeroFraction s))

/-- **The number in a text**: the text as it stands, or else what it is once it has been cleaned.
Only a text that starts with its digits is called too large. -/
def offsetOfText (text : List Char) : Except OffsetFault Int :=
  match plainNumber text, (cleanNumber? text).map plainNumber with
  | .ok n, _ => .ok n
  | .error .tooLarge, _ => .error .tooLarge
  | .error _, some (.ok n) => .ok n
  | .error _, _ => .error .unreadable

/-- The whole number that a binary64 value is, in the range of 64 bits. -/
def offsetOfReal : Binary64 → Except OffsetFault Int
  | .finite negative m e =>
    let (num, den) := Binary64.scaleDown m 1 (-e)
    if num % den ≠ 0 then .error .fraction
    else if power 2 63 ≤ num / den then .error .tooLarge
    else .ok (if negative then -(num / den : Nat) else (num / den : Nat))
  | _ => .error .notFinite

/-- The whole number that a value stands for. -/
def wholeNumber : Json → Except OffsetFault Int
  | .bool b => .ok (if b then 1 else 0)
  | .int n => .ok n
  | .real x => offsetOfReal x
  | .str s => offsetOfText s.toList
  | .null | .arr _ | .obj _ => .error .wrongType

/-- **The offset of a value**: a whole number that is not negative. -/
def readOffset (j : Json) : Except OffsetFault Nat := do
  let n ← wholeNumber j
  if n < 0 then throw .negative else pure n.toNat

end DiskLens
