import DiskLens.Number.Shortest

/-!
# Decimal text of binary64 numbers

* `DecimalStyle`: when a number is written with an exponent, and how wide the exponent is.
* **`DecimalStyle.text`**: a number in a style.
* `catalogStyle`: the style of catalog values.
-/

namespace DiskLens

/-- How decimals are written. A number is written out when the power of ten of its first digit is
at least `least` and below `limit`; other exponents have a sign and at least `width` digits. -/
structure DecimalStyle where
  least : Int
  limit : Int
  width : Nat
deriving DecidableEq, Repr

namespace DecimalStyle

/-- The decimal digits of a number, padded with zeros to a width. -/
def padded (width n : Nat) : List Char :=
  let ds := Nat.toDigits 10 n
  List.replicate (width - ds.length) '0' ++ ds

/-- An exponent with its sign. -/
def exponentText (style : DecimalStyle) (x : Int) : List Char :=
  'e' :: (if x < 0 then '-' else '+') :: padded style.width x.natAbs

/-- Digits with the point behind the first `point` of them, filled up with zeros. -/
def pointed (ds : List Char) (point : Int) : List Char :=
  if point ≤ 0 then '0' :: '.' :: List.replicate (-point).toNat '0' ++ ds
  else
    let k := point.toNat
    if ds.length ≤ k then ds ++ List.replicate (k - ds.length) '0' ++ ['.', '0']
    else ds.take k ++ '.' :: ds.drop k

/-- Digits with the point behind the first one, if there are more, and an exponent. -/
def scientific (style : DecimalStyle) (ds : List Char) (x : Int) : List Char :=
  (match ds with
    | [] => []
    | [d] => [d]
    | d :: rest => d :: '.' :: rest) ++ style.exponentText x

/-- A positive number, given by digits and the power of ten of the last one. -/
def decimalText (style : DecimalStyle) (c : Nat) (p : Int) : List Char :=
  let ds := Nat.toDigits 10 c
  let x : Int := ds.length + p - 1
  if style.least ≤ x ∧ x < style.limit then pointed ds (x + 1) else style.scientific ds x

/-- **The text of a number in a style**: its shortest decimal. -/
def text (style : DecimalStyle) (x : Binary64) : String :=
  match x with
  | .finite negative m e =>
    let body :=
      if m = 0 then ['0', '.', '0']
      else
        let (c, p) := shortestDecimal m e
        style.decimalText c p
    String.ofList (if negative then '-' :: body else body)
  | .infinite negative => if negative then "-inf" else "inf"
  | .nan => "nan"

end DecimalStyle

/-- Catalog values are written out from `1e-4` up to `1e16`; exponents have two digits at least. -/
def catalogStyle : DecimalStyle := ⟨-4, 16, 2⟩

end DiskLens
