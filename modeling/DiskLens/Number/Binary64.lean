import DiskLens.Text.Integer

/-!
# Binary64 numbers

The numbers of a catalog with a point or an exponent are binary64 values. They are kept as what they
stand for, a sign, a whole significand and a power of two, so that reading and writing them is exact
arithmetic on natural numbers.

* `Binary64`: the values.
* `roundDiv`: a quotient rounded to the nearest natural number, ties to the even one.
* **`Binary64.ofDecimal`**: the value nearest to a decimal number.
-/

namespace DiskLens

/-- **A binary64 value.** A finite one is `significand * 2 ^ exponent` with its sign, where the
significand is below `2 ^ 53` and the exponent is the least that keeps it so, at least `-1074`. -/
inductive Binary64
  | finite (negative : Bool) (significand : Nat) (exponent : Int)
  | infinite (negative : Bool)
  | nan
deriving DecidableEq, Repr

/-- A power; an exponent below zero counts as zero. -/
def power (base : Nat) (e : Int) : Nat := Nat.pow base e.toNat

/-- The quotient rounded to the nearest natural number; a tie goes to the even one. -/
def roundDiv (num den : Nat) : Nat :=
  let q := num / den
  let r := num % den
  if 2 * r < den then q
  else if den < 2 * r then q + 1
  else if q % 2 = 0 then q else q + 1

namespace Binary64

/-- The least exponent. -/
def minExponent : Int := -1074

/-- The greatest exponent. -/
def maxExponent : Int := 971

/-- `2 ^ 53`, above every significand. -/
def significandLimit : Nat := power 2 53

/-- Zero with a sign. -/
def zero (negative : Bool) : Binary64 := .finite negative 0 minExponent

/-- The value is zero, of either sign. -/
def isZero : Binary64 → Bool
  | finite _ m _ => m = 0
  | _ => false

/-- The value is a number. -/
def isFinite : Binary64 → Bool
  | finite .. => true
  | _ => false

/-- Numerator and denominator of `num / den / 2 ^ e`. -/
def scaleDown (num den : Nat) (e : Int) : Nat × Nat := (num * power 2 (-e), den * power 2 e)

/-- The exponent for the value `num / den`: with it the quotient lies from `2 ^ 52` to `2 ^ 53`,
unless it is so small that the least exponent is the right one. -/
def exponentFor (num den : Nat) : Int :=
  let low : Int := (num.log2 : Int) - den.log2 - 53
  let (n, d) := scaleDown num den low
  max minExponent (if significandLimit ≤ n / d then low + 1 else low)

/-- The value nearest to `num / den`; a tie goes to the even significand. -/
def ofRatio (negative : Bool) (num den : Nat) : Binary64 :=
  if num = 0 then zero negative
  else
    let e := exponentFor num den
    let (n, d) := scaleDown num den e
    let m := roundDiv n d
    let (m, e) := if m = significandLimit then (m / 2, e + 1) else (m, e)
    if maxExponent < e then infinite negative else finite negative m e

/-- **The value nearest to a decimal number**, given by its digits and the power of ten of the last
one. Numbers far outside the range need no arithmetic. -/
def ofDecimal (negative : Bool) (digits : List Nat) (exponent : Int) : Binary64 :=
  let digits := digits.dropWhile (· = 0)
  let magnitude : Int := digits.length + exponent
  if digits = [] ∨ magnitude < -330 then zero negative
  else if 310 < magnitude then infinite negative
  else ofRatio negative (ofDigits digits * power 10 exponent) (power 10 (-exponent))

end Binary64

end DiskLens
