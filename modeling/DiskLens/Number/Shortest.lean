import DiskLens.Number.Binary64

/-!
# Shortest decimals

The decimal number with the fewest digits that reads back as a given binary64 value. The numbers
that read back as the value form an interval around it. For each count of digits the two neighbours
of the value on the grid of such decimals are tried; the first count with a neighbour in the
interval is the least one, and of two such neighbours the nearer is taken.

* `ReadBack`: the interval, in quarters of the value's last place.
* `shortestFrom`: the search over counts of digits.
* **`shortestDecimal`**: digits and power of ten of the shortest decimal.
-/

namespace DiskLens

/-- How many digits a number has in base ten; zero has one. -/
def digitCount (n : Nat) : Nat := (Nat.toDigits 10 n).length

/-- The numbers that read back as `m * 2 ^ e`, in units of `2 ^ (e - 2)`. The ends belong to the
interval when `m` is even. Below a power of two the last place is half as wide. -/
structure ReadBack where
  low : Nat
  value : Nat
  high : Nat
  closed : Bool
deriving DecidableEq, Repr

namespace ReadBack

/-- The interval of a value. -/
def of (m : Nat) (e : Int) : ReadBack :=
  let below := if m = power 2 52 ∧ Binary64.minExponent < e then 1 else 2
  ⟨4 * m - below, 4 * m, 4 * m + 2, m % 2 = 0⟩

/-- The quotient `num / den` lies in the interval. -/
def holds (r : ReadBack) (num den : Nat) : Bool :=
  if r.closed then r.low * den ≤ num && num ≤ r.high * den
  else r.low * den < num && num < r.high * den

end ReadBack

/-- The power of ten of the first digit of `m * 2 ^ e`. -/
def leadingPower (m : Nat) (e : Int) : Int :=
  let num := m * power 2 e
  let den := power 2 (-e)
  if den ≤ num then digitCount (num / den) - 1
  else -(digitCount ((den + num - 1) / num - 1) : Int)

/-- The better of the two neighbours of `m * 2 ^ e` among the multiples of `10 ^ p`, if one of them
reads back as the value; of two equally near ones the even multiple. -/
def neighbour? (m : Nat) (e p : Int) : Option Nat :=
  let r := ReadBack.of m e
  let unit := power 10 p * power 2 (2 - e)
  let whole := power 10 (-p) * power 2 (e - 2)
  let low := r.value * whole / unit
  let fits (c : Nat) : Bool := r.holds (c * unit) whole
  let below := r.value * whole - low * unit
  let above := (low + 1) * unit - r.value * whole
  match fits low, fits (low + 1) with
  | true, true =>
    some (if below < above then low else if above < below then low + 1
      else if low % 2 = 0 then low else low + 1)
  | true, false => some low
  | false, true => some (low + 1)
  | false, false => none

/-- The first decimal that reads back, over the next `tries` counts of digits from `count` on. -/
def shortestFrom (m : Nat) (e : Int) (count : Nat) : Nat → Nat × Int
  | 0 => (m, e)
  | tries + 1 =>
    let p := leadingPower m e - count + 1
    match neighbour? m e p with
    | some c => (c, p)
    | none => shortestFrom m e (count + 1) tries

/-- The number without its zeros at the end, and the power of ten of its last digit. -/
def dropZeros : Nat → Nat → Int → Nat × Int
  | 0, c, p => (c, p)
  | fuel + 1, c, p => if c ≠ 0 ∧ c % 10 = 0 then dropZeros fuel (c / 10) (p + 1) else (c, p)

/-- **The shortest decimal that reads back as `m * 2 ^ e`**: its digits as a number, and the power
of ten of the last one. Seventeen digits always suffice. -/
def shortestDecimal (m : Nat) (e : Int) : Nat × Int :=
  let (c, p) := shortestFrom m e 1 17
  dropZeros (digitCount c) c p

end DiskLens
