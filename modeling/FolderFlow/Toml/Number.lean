import FolderFlow.Json.Basic
import FolderFlow.Toml.Lexical

/-!
# TOML numbers

Integers of 64 bits with a sign, in four bases, and doubles, each read to the nearest. What is not
finite has no JSON form and becomes `null`; a decimal beyond the largest double is refused when it
is positive.
-/

namespace FolderFlow.Toml

open Text (hexValue? valueOf)

/-- A run of digits, an underscore allowed between any two of them; the underscores are dropped. -/
def readRun (isDigit : Char → Bool) : List Char → Option (List Char × List Char)
  | [] => none
  | c :: cs =>
    if isDigit c then
      match cs with
      | '_' :: rest => (readRun isDigit rest).map fun (ds, rest) => (c :: ds, rest)
      | rest =>
        match readRun isDigit rest with
        | some (ds, rest) => some (c :: ds, rest)
        | none => if rest.head?.any isDigit then none else some ([c], rest)
    else none

def digitValue (c : Char) : Nat :=
  (hexValue? c).getD 0

def valueOf (base : Nat) (ds : List Char) : Nat :=
  ds.foldl (fun n c => n * base + digitValue c) 0

/-- The number of a run in a base other than ten. -/
def readInBase (base : Nat) (cs : List Char) : Option (Json × List Char) := do
  let isDigit (c : Char) := (hexValue? c).any (· < base)
  let (ds, rest) ← readRun isDigit cs
  let n := valueOf base ds
  if n ≤ 9223372036854775807 then some (.nat n, rest) else none

/-- No digit may follow a leading zero. -/
def readWhole (cs : List Char) : Option (List Char × List Char) :=
  match cs with
  | '0' :: rest => some (['0'], rest)
  | _ => readRun Char.isDigit cs

def readFractionDigits : List Char → Option (Option (List Char) × List Char)
  | '.' :: rest => (readRun Char.isDigit rest).map fun (ds, rest) => (some ds, rest)
  | rest => some (none, rest)

def readExponent : List Char → Option (Option Int × List Char)
  | [] => some (none, [])
  | c :: rest =>
    if c == 'e' || c == 'E' then
      let (negative, rest) := match rest with
        | '+' :: rest => (false, rest)
        | '-' :: rest => (true, rest)
        | rest => (false, rest)
      (readRun Char.isDigit rest).map fun (ds, rest) =>
        let n : Int := valueOf 10 ds
        (some (if negative then -n else n), rest)
    else some (none, c :: rest)

/-- The double of a decimal, rounded once. -/
def floatOf? (negative : Bool) (whole fraction : List Char) (exponent : Int) : Option Json :=
  match Decimal.Binary64.ofDecimal? (valueOf 10 (whole ++ fraction))
      (exponent - fraction.length) with
  | some x => some (.number (.float (if negative then x.neg else x)))
  | none => if negative then some .null else none

def integerOf? (negative : Bool) (whole : List Char) : Option Json :=
  let n := valueOf 10 whole
  if negative then (if n ≤ 9223372036854775808 then some (.number (.int (-n))) else none)
  else (if n ≤ 9223372036854775807 then some (.nat n) else none)

def readDecimal (negative : Bool) (cs : List Char) : Option (Json × List Char) := do
  let (whole, rest) ← readWhole cs
  let (fraction, rest) ← readFractionDigits rest
  let (exponent, rest) ← readExponent rest
  let number ← if fraction.isNone && exponent.isNone then integerOf? negative whole
    else floatOf? negative whole (fraction.getD []) (exponent.getD 0)
  return (number, rest)

/-- A number behind its sign, if it has one. -/
def readUnsigned (negative : Bool) : List Char → Option (Json × List Char)
  | 'i' :: 'n' :: 'f' :: rest => some (.null, rest)
  | 'n' :: 'a' :: 'n' :: rest => some (.null, rest)
  | cs => readDecimal negative cs

/-- Only a number in base ten may have a sign. -/
def readNumber : List Char → Option (Json × List Char)
  | '0' :: 'x' :: rest => readInBase 16 rest
  | '0' :: 'o' :: rest => readInBase 8 rest
  | '0' :: 'b' :: rest => readInBase 2 rest
  | '+' :: rest => readUnsigned false rest
  | '-' :: rest => readUnsigned true rest
  | cs => readUnsigned false cs

end FolderFlow.Toml
