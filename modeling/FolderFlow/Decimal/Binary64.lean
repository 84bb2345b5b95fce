/-!
# Double-precision numbers

Finite numbers of 53 binary digits, as exact data: a sign, a mantissa and a power of two. Every
operation rounds an exact quotient of naturals to the nearest such number, a tie to the even
mantissa.
-/

namespace FolderFlow.Decimal

def pow2 (n : Nat) : Nat :=
  Nat.pow 2 n

def pow10 (n : Nat) : Nat :=
  Nat.pow 10 n

/-- The number `mantissa * 2 ^ exponent`. A number that `Binary64.round` makes has the smallest
mantissa that needs all 53 digits, or the exponent -1074. -/
structure Binary64 where
  negative : Bool
  mantissa : Nat
  exponent : Int
  deriving DecidableEq, Repr

/-- The quotient rounded to the nearest natural number, a tie to the even one. -/
def divNearestEven (num den : Nat) : Nat :=
  let quotient := num / den
  match compare (2 * (num % den)) den with
  | .lt => quotient
  | .gt => quotient + 1
  | .eq => quotient + quotient % 2

namespace Binary64

def zero (negative : Bool) : Binary64 :=
  ⟨negative, 0, -1074⟩

/-- `num / (den * 2 ^ exponent)` to the nearest natural number. -/
def scaled (num den : Nat) (exponent : Int) : Nat :=
  divNearestEven (num * pow2 (-exponent).toNat) (den * pow2 exponent.toNat)

/-- The exponent at which `num / den` has 53 binary digits, and -1074 for what is too small to have
them. -/
def exponentOf (num den : Nat) : Int :=
  let top : Int := (num.log2 : Int) - den.log2
  let reached := den * pow2 top.toNat ≤ num * pow2 (-top).toNat
  max (if reached then top - 52 else top - 53) (-1074)

/-- The nearest number to `num / den`; `none` when it is too large. -/
def round (negative : Bool) (num den : Nat) : Option Binary64 :=
  if num = 0 then some (zero negative)
  else
    let exponent := exponentOf num den
    let mantissa := scaled num den exponent
    let (mantissa, exponent) :=
      if mantissa = pow2 53 then (pow2 52, exponent + 1) else (mantissa, exponent)
    if exponent ≤ 971 then
      some (if mantissa = 0 then zero negative else ⟨negative, mantissa, exponent⟩)
    else none

def ofNat? (n : Nat) : Option Binary64 :=
  round false n 1

def mul? (x y : Binary64) : Option Binary64 :=
  let exponent := x.exponent + y.exponent
  round (x.negative != y.negative) (x.mantissa * y.mantissa * pow2 exponent.toNat)
    (pow2 (-exponent).toNat)

def div? (x y : Binary64) : Option Binary64 :=
  let exponent := x.exponent - y.exponent
  round (x.negative != y.negative) (x.mantissa * pow2 exponent.toNat)
    (y.mantissa * pow2 (-exponent).toNat)

def neg (x : Binary64) : Binary64 :=
  { x with negative := !x.negative }

/-! ## Reading decimals -/

/-- The number nearest to `digits * 10 ^ exponent`; `none` when it is too large. The first two
cases keep the powers small. -/
def ofDecimal? (digits : Nat) (exponent : Int) : Option Binary64 :=
  let size : Int := (Nat.toDigits 10 digits).length
  if digits = 0 || size + exponent < -330 then some (zero false)
  else if size + exponent > 330 then none
  else round false (digits * pow10 exponent.toNat) (pow10 (-exponent).toNat)

def powerOfTen? (n : Nat) : Option Binary64 :=
  round false (pow10 n) 1

/-- `x / 10 ^ n` in steps that each round: whole steps of 308 powers first, while something is
left. -/
def divPowerOfTen? (x : Binary64) (n : Nat) : Option Binary64 :=
  if n ≤ 308 then (powerOfTen? n).bind (x.div? ·)
  else if x.mantissa = 0 then some x
  else
    ((powerOfTen? 308).bind (x.div? ·)).bind fun y => divPowerOfTen? y (n - 308)
termination_by n
decreasing_by omega

/-- `digits * 10 ^ exponent` in two roundings, first of the digits and then of the product or the
quotient; `none` when it is too large. It may differ from the nearest number in the last digit. -/
def ofDigits? (digits : Nat) (exponent : Int) : Option Binary64 :=
  (ofNat? digits).bind fun x =>
    if exponent < 0 then x.divPowerOfTen? (-exponent).toNat
    else if exponent ≤ 308 then (powerOfTen? exponent.toNat).bind (x.mul? ·)
    else if x.mantissa = 0 then some x
    else none

end Binary64

end FolderFlow.Decimal
