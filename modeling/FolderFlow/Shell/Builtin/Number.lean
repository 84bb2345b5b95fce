import FolderFlow.Decimal.Binary64
import FolderFlow.Shell.Arithmetic

/-!
# Written numbers

How a directive of a format writes a number: with a sign or a prefix, filled up to a width, and
with as many digits as its precision asks for. Fractions are rounded exactly, a tie to the even
digit.
-/

namespace FolderFlow.Shell

/-- What stands between the percent sign and the letter of a directive. -/
structure Layout where
  left : Bool := false
  plus : Bool := false
  space : Bool := false
  alternate : Bool := false
  zeros : Bool := false
  width : Nat := 0
  precision : Option Nat := none

namespace Layout

def repeated (count : Nat) (c : Char) : String :=
  String.ofList (List.replicate count c)

/-- Fills a text up to the width. Zeros go behind the sign. -/
def fill (l : Layout) (zeros : Bool) (sign body : String) : String :=
  let missing := l.width - (sign.length + body.length)
  if l.left then sign ++ body ++ repeated missing ' '
  else if zeros then sign ++ repeated missing '0' ++ body
  else repeated missing ' ' ++ sign ++ body

def text (l : Layout) (s : String) : String :=
  l.fill false "" (String.ofList (s.toList.take (l.precision.getD s.length)))

def signOf (l : Layout) (negative : Bool) : String :=
  if negative then "-" else if l.plus then "+" else if l.space then " " else ""

/-! ## Whole numbers -/

/-- Digits with zeros in front up to the precision, which leaves nothing of a zero if it is zero. -/
def withPrecision (l : Layout) (n : Nat) (digits : String) : String :=
  match l.precision with
  | none => digits
  | some p => if n = 0 && p = 0 then "" else repeated (p - digits.length) '0' ++ digits

def signed (l : Layout) (n : Int) : String :=
  l.fill (l.zeros && l.precision.isNone) (l.signOf (n < 0))
    (l.withPrecision n.natAbs (toString n.natAbs))

def digitsIn (base : Nat) (upper : Bool) (n : Nat) : String :=
  let digits := Nat.toDigits base n
  String.ofList (if upper then digits.map Char.toUpper else digits)

/-- A number without a sign, in the base that a letter stands for. -/
def unsigned (l : Layout) (letter : Char) (n : Nat) : String :=
  let zeros := l.zeros && l.precision.isNone
  match letter with
  | 'o' =>
    let body := l.withPrecision n (digitsIn 8 false n)
    l.fill zeros "" (if l.alternate && body.toList.head? != some '0' then "0" ++ body else body)
  | 'x' | 'X' =>
    let sign := if l.alternate && n != 0 then (if letter == 'x' then "0x" else "0X") else ""
    l.fill zeros sign (l.withPrecision n (digitsIn 16 (letter == 'X') n))
  | _ => l.fill zeros "" (l.withPrecision n (toString n))

/-! ## Fractions -/

open Decimal

/-- The number without its sign as a quotient. -/
def quotient (x : Binary64) : Nat × Nat :=
  (x.mantissa * pow2 x.exponent.toNat, pow2 (-x.exponent).toNat)

/-- A whole number of units of which `places` digits stand behind the point. -/
def pointed (alternate : Bool) (places units : Nat) : String :=
  let digits := toString units
  let digits := repeated (places + 1 - digits.length) '0' ++ digits
  let whole := String.ofList (digits.toList.take (digits.length - places))
  let rest := String.ofList (digits.toList.drop (digits.length - places))
  if places = 0 && !alternate then whole else whole ++ "." ++ rest

def fixed (alternate : Bool) (places : Nat) (x : Binary64) : String :=
  let (num, den) := quotient x
  pointed alternate places (divNearestEven (num * pow10 places) den)

/-- The quotient in units of `10 ^ exponent`. -/
def unitsOf (num den : Nat) (exponent : Int) : Nat :=
  divNearestEven (num * pow10 (-exponent).toNat) (den * pow10 exponent.toNat)

/-- The power of ten of the first digit of a quotient. -/
def leadingPower (num den : Nat) : Int :=
  let bound : Int := (toString num).length - (toString den).length
  if den * pow10 bound.toNat ≤ num * pow10 (-bound).toNat then bound else bound - 1

/-- The digits of a number, one of them and `places` others, and the power of the first. -/
def scientificDigits (places : Nat) (x : Binary64) : Nat × Int :=
  let (num, den) := quotient x
  if num = 0 then (0, 0)
  else
    let power := leadingPower num den
    let units := unitsOf num den (power - places)
    if units = pow10 (places + 1) then (pow10 places, power + 1) else (units, power)

def exponentText (letter : Char) (power : Int) : String :=
  let digits := toString power.natAbs
  String.singleton letter ++ (if power < 0 then "-" else "+") ++
    (if digits.length < 2 then "0" ++ digits else digits)

def scientific (alternate : Bool) (letter : Char) (places : Nat) (x : Binary64) : String :=
  let (units, power) := scientificDigits places x
  pointed alternate places units ++ exponentText letter power

/-- The text without zeros at the end of its places. -/
def dropZeros (s : String) : String :=
  if s.toList.contains '.' then
    let cs := s.toList.reverse.dropWhile (· == '0')
    String.ofList (if cs.head? == some '.' then cs.drop 1 else cs).reverse
  else s

/-- Few digits, written in the way that is shorter. -/
def general (alternate : Bool) (letter : Char) (precision : Nat) (x : Binary64) : String :=
  let precision := max precision 1
  let (units, power) := scientificDigits (precision - 1) x
  let clean (s : String) : String := if alternate then s else dropZeros s
  if -4 ≤ power && power < precision then
    clean (fixed alternate ((precision : Int) - 1 - power).toNat x)
  else clean (pointed alternate (precision - 1) units) ++ exponentText letter power

/-- A number with hexadecimal digits, of which thirteen hold all that stands behind the point, and
the power of two of the digit before it. -/
def hexadecimal (l : Layout) (upper : Bool) (x : Binary64) : String :=
  let hidden := pow2 52
  let power : Int := if x.mantissa = 0 then 0 else if x.mantissa < hidden then -1022
    else x.exponent + 52
  let places := (l.precision.getD 13)
  let kept := min places 13
  let units := divNearestEven x.mantissa (pow2 (4 * (13 - kept)))
  let digits := digitsIn 16 upper (units % pow2 (4 * kept))
  let rest := repeated (kept - digits.length) '0' ++ (if kept = 0 then "" else digits)
  let rest := match l.precision with
    | some p => rest ++ repeated (p - 13) '0'
    | none => String.ofList (rest.toList.reverse.dropWhile (· == '0')).reverse
  let point := if rest.isEmpty && !l.alternate then "" else "."
  toString (units / pow2 (4 * kept)) ++ point ++ rest ++
    (if upper then "P" else "p") ++ (if power < 0 then "-" else "+") ++ toString power.natAbs

/-- What a text can say about a fraction. -/
inductive Fraction where
  | finite (x : Binary64)
  | infinite (negative : Bool)
  | notANumber (negative : Bool)
  deriving DecidableEq, Repr

def fraction (l : Layout) (letter : Char) (value : Fraction) : String :=
  let upper := letter.isUpper
  let word (s : String) : String := if upper then s.map Char.toUpper else s
  match value with
  | .notANumber negative => l.fill false (l.signOf negative) (word "nan")
  | .infinite negative => l.fill false (l.signOf negative) (word "inf")
  | .finite x =>
    let precision := l.precision.getD 6
    let start := if letter.toLower == 'a' then word "0x" else ""
    let body := match letter.toLower with
      | 'a' => l.hexadecimal upper x
      | 'f' => fixed l.alternate precision x
      | 'e' => scientific l.alternate letter precision x
      | _ => general l.alternate (if upper then 'E' else 'e') precision x
    l.fill l.zeros (l.signOf x.negative ++ start) body

end Layout

/-! ## Reading fractions -/

/-- What a text begins with as a number. -/
structure Reading where
  value : Layout.Fraction
  /-- How many characters of the text it takes. -/
  count : Nat
  /-- Whether the number is too large, or too small to have all its digits. -/
  outOfRange : Bool := false

/-- The nearest number to `num / den`. -/
def readQuotient (negative : Bool) (num den : Nat) (count : Nat) : Reading :=
  match Decimal.Binary64.round negative num den with
  | none => ⟨.infinite negative, count, true⟩
  | some x =>
    let isSmall := x.mantissa < Decimal.pow2 52
    ⟨.finite x, count, isSmall && num * Decimal.pow2 1074 != x.mantissa * den⟩

/-- The number nearest to `digits * base ^ exponent`, given about how large the exponents of numbers
in that base can be. -/
def readPower (negative : Bool) (base : Nat) (bound : Int) (digits : Nat) (exponent : Int)
    (count : Nat) : Reading :=
  let size : Int := (Nat.toDigits base digits).length
  if digits = 0 then ⟨.finite (.zero negative), count, false⟩
  else if size + exponent < -bound then ⟨.finite (.zero negative), count, true⟩
  else if bound < size + exponent then ⟨.infinite negative, count, true⟩
  else
    readQuotient negative (digits * Nat.pow base exponent.toNat)
      (Nat.pow base (-exponent).toNat) count

/-- The exponent behind the digits and its length, if there is one. -/
def readExponent (mark : Char) (cs : List Char) : Int × Nat :=
  match cs with
  | e :: rest =>
    if e.toLower == mark then
      let (sign, signs, rest) : Int × Nat × List Char := match rest with
        | '-' :: rest => (-1, 1, rest)
        | '+' :: rest => (1, 1, rest)
        | rest => (1, 0, rest)
      let digits := rest.takeWhile Char.isDigit
      if digits.isEmpty then (0, 0)
      else (sign * Text.valueOf 10 digits, 1 + signs + digits.length)
    else (0, 0)
  | [] => (0, 0)

/-- The length of what may stand in parentheses behind the word for what is no number. -/
def payload (cs : List Char) : Nat :=
  match cs with
  | '(' :: rest =>
    let inner := rest.takeWhile fun c => c.isAlphanum || c == '_'
    if rest[inner.length]? == some ')' then inner.length + 2 else 0
  | _ => 0

/-- The digits before and behind a point, and the count of characters. -/
def pointedDigits (base : Nat) (cs : List Char) : List Char × List Char × Nat :=
  let whole := digitsOf base cs
  match cs.drop whole.length with
  | '.' :: rest =>
    let places := digitsOf base rest
    (whole, places, whole.length + places.length + 1)
  | _ => (whole, [], whole.length)

/-- The fraction that a text begins with. -/
def readFraction (cs : List Char) : Reading :=
  let blanks := (cs.takeWhile isBlankByte).length
  let (negative, signs, cs) : Bool × Nat × List Char := match cs.drop blanks with
    | '-' :: rest => (true, 1, rest)
    | '+' :: rest => (false, 1, rest)
    | rest => (false, 0, rest)
  let start := blanks + signs
  let lower := cs.map Char.toLower
  if "infinity".toList.isPrefixOf lower then ⟨.infinite negative, start + 8, false⟩
  else if "inf".toList.isPrefixOf lower then ⟨.infinite negative, start + 3, false⟩
  else if "nan".toList.isPrefixOf lower then
    ⟨.notANumber negative, start + 3 + payload (cs.drop 3), false⟩
  else
    let (whole, places, count) := pointedDigits 16 (lower.drop 2)
    if "0x".toList.isPrefixOf lower && !(whole.isEmpty && places.isEmpty) then
      let (power, more) := readExponent 'p' (lower.drop (2 + count))
      readPower negative 2 1100 (Text.valueOf 16 (whole ++ places)) (power - 4 * places.length)
        (start + 2 + count + more)
    else
      let (whole, places, count) := pointedDigits 10 lower
      if whole.isEmpty && places.isEmpty then ⟨.finite (.zero false), 0, false⟩
      else
        let (power, more) := readExponent 'e' (lower.drop count)
        readPower negative 10 330 (Text.valueOf 10 (whole ++ places)) (power - places.length)
          (start + count + more)

end FolderFlow.Shell
