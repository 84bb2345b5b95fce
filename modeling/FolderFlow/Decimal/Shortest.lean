import FolderFlow.Decimal.Binary64

/-!
# Shortest decimals

The fewest decimal digits that read back as a given double. A decimal reads back when it lies in the
interval of reals that round to the number, whose ends belong to it exactly for an even mantissa.
On the grid of multiples of `10 ^ k` only the two neighbours of the number can be its best
approximation, so the first grid, from coarse to fine, on which one of the two lies in the interval
gives the answer: the nearer of those that do, on a tie the even one.
-/

namespace FolderFlow.Decimal

/-- The reals that round to one number, as three naturals over one denominator: the lower end, the
number itself, the upper end. -/
structure Interval where
  lower : Nat
  value : Nat
  upper : Nat
  den : Nat
  closed : Bool

namespace Interval

/-- Both ends lie half a unit of the last binary digit away; below a power of two the unit is half
as large. -/
def ofBinary64 (x : Binary64) : Interval :=
  let scale := pow2 (x.exponent - 2).toNat
  let below := if x.mantissa = pow2 52 ∧ x.exponent > -1074 then 1 else 2
  { lower := (4 * x.mantissa - below) * scale
    value := 4 * x.mantissa * scale
    upper := (4 * x.mantissa + 2) * scale
    den := pow2 (2 - x.exponent).toNat
    closed := x.mantissa % 2 = 0 }

/-- `n / den` lies in the interval, the ends multiplied by `factor`. -/
def holds (i : Interval) (factor n : Nat) : Bool :=
  if i.closed then i.lower * factor ≤ n && n ≤ i.upper * factor
  else i.lower * factor < n && n < i.upper * factor

/-- The best multiple of `10 ^ k` in the interval, as its factor. -/
def onGrid? (i : Interval) (k : Int) : Option Nat :=
  let factor := pow10 (-k).toNat
  let step := i.den * pow10 k.toNat
  let value := i.value * factor
  let low := value / step
  let high := low + 1
  match i.holds factor (low * step), i.holds factor (high * step) with
  | true, true =>
    match compare (value - low * step) (high * step - value) with
    | .lt => some low
    | .gt => some high
    | .eq => some (if low % 2 = 0 then low else high)
  | true, false => some low
  | false, true => some high
  | false, false => none

/-- A power of ten above the whole interval, and not by much. -/
def topExponent (i : Interval) : Int :=
  if i.den ≤ i.value then (Nat.toDigits 10 (i.value / i.den)).length
  else 1 - ((Nat.toDigits 10 (i.den / i.value)).length : Int)

end Interval

/-- Takes a factor ten out of `digits` while there is one. -/
def dropTrailingZeros : (fuel digits : Nat) → (exponent : Int) → Nat × Int
  | 0, digits, exponent => (digits, exponent)
  | fuel + 1, digits, exponent =>
    if digits ≠ 0 ∧ digits % 10 = 0 then dropTrailingZeros fuel (digits / 10) (exponent + 1)
    else (digits, exponent)

/-- Digits `d` and an exponent `k` for which `d * 10 ^ k` is the shortest decimal of a number that
is not zero. Seventeen digits always suffice, so a grid is found among the first twenty. -/
def Binary64.shortest (x : Binary64) : Nat × Int :=
  let interval := Interval.ofBinary64 x
  let top := interval.topExponent
  let grids := (List.range 20).map fun (i : Nat) => top - i
  match grids.findSome? fun k => (interval.onGrid? k).map (·, k) with
  | some (digits, k) => dropTrailingZeros 20 digits k
  | none => (0, 0)

end FolderFlow.Decimal
