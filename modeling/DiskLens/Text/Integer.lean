import DiskLens.Text.Blank

/-!
# Integers in text

A written integer has white space around it, at most one sign, and decimal digits of any script
with single underscores between them.

* `decimalZeros`: the digits zero; each is followed by the other nine digits of its script.
* `digitValue?`: the value of a decimal digit.
* `digitRun?`: digits with single underscores between them.
* **`readInteger?`**: the integer a text stands for.
-/

namespace DiskLens

/-- The code points of general category Nd with value zero, in version 14 of the Unicode character
database. -/
def decimalZeros : List Nat :=
  [0x30, 0x660, 0x6F0, 0x7C0, 0x966, 0x9E6, 0xA66, 0xAE6, 0xB66, 0xBE6, 0xC66, 0xCE6, 0xD66, 0xDE6,
   0xE50, 0xED0, 0xF20, 0x1040, 0x1090, 0x17E0, 0x1810, 0x1946, 0x19D0, 0x1A80, 0x1A90, 0x1B50,
   0x1BB0, 0x1C40, 0x1C50, 0xA620, 0xA8D0, 0xA900, 0xA9D0, 0xA9F0, 0xAA50, 0xABF0, 0xFF10, 0x104A0,
   0x10D30, 0x11066, 0x110F0, 0x11136, 0x111D0, 0x112F0, 0x11450, 0x114D0, 0x11650, 0x116C0,
   0x11730, 0x118E0, 0x11950, 0x11C50, 0x11D50, 0x11DA0, 0x16A60, 0x16AC0, 0x16B50, 0x1D7CE,
   0x1D7D8, 0x1D7E2, 0x1D7EC, 0x1D7F6, 0x1E140, 0x1E2F0, 0x1E950, 0x1FBF0]

/-- The value of a decimal digit of any script. -/
def digitValue? (c : Char) : Option Nat :=
  (decimalZeros.find? fun z => z ≤ c.toNat && c.toNat ≤ z + 9).map (c.toNat - ·)

/-- The value of a digit from `0` to `9`. -/
def asciiDigit? (c : Char) : Option Nat :=
  if '0' ≤ c && c ≤ '9' then some (c.toNat - 0x30) else none

/-- The values of one or more digits, with at most one underscore between two of them. -/
def digitRun? (digit? : Char → Option Nat) : List Char → Option (List Nat)
  | [] => none
  | [c] => (digit? c).map ([·])
  | c :: '_' :: cs => do
    let d ← digit? c
    let ds ← digitRun? digit? cs
    pure (d :: ds)
  | c :: cs => do
    let d ← digit? c
    let ds ← digitRun? digit? cs
    pure (d :: ds)

/-- The number with these decimal digits. -/
def ofDigits (ds : List Nat) : Nat := ds.foldl (fun n d => 10 * n + d) 0

/-- Longer runs of digits are refused. -/
def maxDigits : Nat := 4300

/-- An optional sign and what follows it: whether the number is negative, and the rest. -/
def takeSign : List Char → Bool × List Char
  | '-' :: cs => (true, cs)
  | '+' :: cs => (false, cs)
  | cs => (false, cs)

/-- **The integer that a text stands for.** -/
def readInteger? (s : List Char) : Option Int := do
  let (negative, body) := takeSign (trimWith isWhiteSpace s)
  let ds ← digitRun? digitValue? body
  if ds.length ≤ maxDigits then
    let n : Int := ofDigits ds
    pure (if negative then -n else n)
  else none

end DiskLens
