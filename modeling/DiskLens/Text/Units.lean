import DiskLens.Text.CodePoint
import DiskLens.Text.Utf8

/-!
# Texts in wide units

Texts as units of two or four bytes. A unit of two bytes is a character or half of a surrogate pair,
a unit of four bytes is always a whole code. Halves that stand alone are kept as they are.

* `ByteOrder`: which byte of a unit comes first.
* `joinUnits`: the codes of units of two bytes.
* **`decodeUnits16?`**, **`decodeUnits32?`**: the text in some bytes.
-/

namespace DiskLens

/-- Which byte of a unit comes first. -/
inductive ByteOrder
  | big
  | little
deriving DecidableEq, Repr

namespace ByteOrder

/-- The number in the bytes of a unit. -/
def number (order : ByteOrder) (unit : Bytes) : Nat :=
  let bytes := match order with
    | big => unit
    | little => unit.reverse
  bytes.foldl (fun n b => 256 * n + b.toNat) 0

/-- The units of two bytes; no byte may be left over. -/
def units16? (order : ByteOrder) : Bytes → Option (List Nat)
  | [] => some []
  | [_] => none
  | a :: b :: rest => (order.units16? rest).map (order.number [a, b] :: ·)

/-- The units of four bytes; no byte may be left over. -/
def units32? (order : ByteOrder) : Bytes → Option (List Nat)
  | [] => some []
  | a :: b :: c :: d :: rest => (order.units32? rest).map (order.number [a, b, c, d] :: ·)
  | _ => none

end ByteOrder

/-- The codes of units of two bytes: surrogate pairs are joined. -/
def joinUnits : List Nat → List Nat
  | [] => []
  | [n] => [n]
  | n :: m :: rest =>
    if isHighSurrogate n && isLowSurrogate m then pairCode n m :: joinUnits rest
    else n :: joinUnits (m :: rest)

/-- **The text in bytes that make units of two.** -/
def decodeUnits16? (order : ByteOrder) (bytes : Bytes) : Option WideText :=
  (order.units16? bytes).map fun units => (joinUnits units).map CodePoint.ofNat

/-- **The text in bytes that make units of four**, none of them beyond U+10FFFF. -/
def decodeUnits32? (order : ByteOrder) (bytes : Bytes) : Option WideText := do
  let codes ← order.units32? bytes
  if codes.all (· ≤ 0x10FFFF) then pure (codes.map CodePoint.ofNat) else none

end DiskLens
