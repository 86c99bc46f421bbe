import DiskLens.Json.Value

/-!
# Dialects and numerals

Catalog files are read strictly: integers of at most 64 bits, larger ones as binary64 values, and no
number beyond the binary64 range. Request bodies are read leniently: integers of any size, `NaN` and
`Infinity`.

* **`JsonDialect`**: strict and lenient reading.
* `JsonError`: why a text is no JSON value.
* `Numeral`: a number as it is written.
* **`readNumeral`**: the number at the start of a text.
* `Numeral.value`: the value of a number in a dialect.
-/

namespace DiskLens

/-! ## Dialects -/

/-- How a text is read: how deep arrays and objects may nest, and whether reading is lenient. -/
structure JsonDialect where
  maxDepth : Nat
  lenient : Bool
deriving DecidableEq, Repr

/-- Why a text is no JSON value: it does not follow the grammar, it nests too deep, or a number in
it has too many digits. -/
inductive JsonError
  | malformed
  | tooDeep
  | tooLong
deriving DecidableEq, Repr

namespace JsonError

/-- Readers are told only that the text is at fault. -/
def message (_ : JsonError) : String := "<json error>"

end JsonError

namespace JsonDialect

/-- Catalog files. -/
def catalog : JsonDialect := ⟨1024, false⟩

/-- Request bodies. -/
def body : JsonDialect := ⟨960, true⟩

end JsonDialect

/-! ## Numerals -/

namespace Json

/-- A number as it is written: its sign, the digits before and behind the point, and the
exponent. -/
structure Numeral where
  negative : Bool
  whole : List Nat
  fraction : Option (List Nat)
  exponent : Option Int
deriving DecidableEq, Repr

/-- The digits at the start of a text, and what follows them. -/
def takeDigits (s : List Char) : List Nat × List Char :=
  ((s.takeWhile (asciiDigit? · |>.isSome)).filterMap asciiDigit?,
    s.dropWhile (asciiDigit? · |>.isSome))

/-- The digits before the point. No digit may follow a zero at their start: strict reading refuses
it, lenient reading leaves it to what follows the number. -/
def readWhole (lenient : Bool) (s : List Char) : Option (List Nat × List Char) :=
  match takeDigits s with
  | ([], _) => none
  | (0 :: _ :: _, _) => if lenient then some ([0], s.drop 1) else none
  | (ds, rest) => some (ds, rest)

/-- A point and digits, if there is a point. Lenient reading stops before a point that no digit
follows. -/
def readFraction (lenient : Bool) : List Char → Option (Option (List Nat) × List Char)
  | '.' :: cs =>
    match takeDigits cs with
    | ([], _) => if lenient then some (none, '.' :: cs) else none
    | (ds, rest) => some (some ds, rest)
  | cs => some (none, cs)

/-- An `e`, a sign and digits, if there is an `e`. Lenient reading stops before an `e` that no
exponent follows. -/
def readExponent (lenient : Bool) : List Char → Option (Option Int × List Char)
  | c :: cs =>
    if c = 'e' ∨ c = 'E' then
      let (negative, body) := takeSign cs
      match takeDigits body with
      | ([], _) => if lenient then some (none, c :: cs) else none
      | (ds, rest) =>
        let n : Int := ofDigits ds
        some (some (if negative then -n else n), rest)
    else some (none, c :: cs)
  | [] => some (none, [])

/-- A minus at the start of a text, and what follows it. -/
def takeMinus : List Char → Bool × List Char
  | '-' :: cs => (true, cs)
  | cs => (false, cs)

/-- A number at the start of a text, and what follows it. Strict reading refuses a number that
breaks off, lenient reading takes the longest number there is. -/
def readNumeral (lenient : Bool) (s : List Char) : Option (Numeral × List Char) := do
  let (negative, s) := takeMinus s
  let (whole, s) ← readWhole lenient s
  let (fraction, s) ← readFraction lenient s
  let (exponent, s) ← readExponent lenient s
  pure (⟨negative, whole, fraction, exponent⟩, s)

namespace Numeral

/-- The binary64 value of a number. -/
def toBinary64 (n : Numeral) : Binary64 :=
  let fraction := n.fraction.getD []
  Binary64.ofDecimal n.negative (n.whole ++ fraction) (n.exponent.getD 0 - fraction.length)

/-- The value of a number without a point and an exponent. -/
def toInt (n : Numeral) : Int :=
  let m : Int := ofDigits n.whole
  if n.negative then -m else m

/-- The value of a number in a dialect. -/
def value {τ : Type} (dialect : JsonDialect) (n : Numeral) : Except JsonError (JsonOf τ) :=
  let real : Except JsonError (JsonOf τ) :=
    let x := n.toBinary64
    if x.isFinite || dialect.lenient then .ok (.real x) else .error .malformed
  if n.fraction = none ∧ n.exponent = none then
    if dialect.lenient then
      if n.whole.length ≤ maxDigits then .ok (.int n.toInt) else .error .tooLong
    else if -(power 2 63 : Int) ≤ n.toInt ∧ n.toInt < power 2 64 then .ok (.int n.toInt)
    else real
  else real

end Numeral

end Json

end DiskLens
