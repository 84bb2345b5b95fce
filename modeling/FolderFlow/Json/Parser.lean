import FolderFlow.Json.Basic
import FolderFlow.Text.Hex

/-!
# Reading JSON

A reader takes characters from the front of a text and gives back the rest, or nothing when the text
does not begin with what it reads. Nesting is limited, so the reader of a value recurses on the
number of levels that may still be opened; lists of items recurse on the text that is left.
-/

namespace FolderFlow.Json

open Text (hexValue? digitValue valueOf)

def isSpace (c : Char) : Bool :=
  c == ' ' || c == '\t' || c == '\n' || c == '\r'

def skipSpace (cs : List Char) : List Char :=
  cs.dropWhile isSpace

/-! ## Strings -/

/-- The four hexadecimal digits of an escape. -/
def readUnit : List Char → Option (Nat × List Char)
  | a :: b :: c :: d :: rest => do
    let high := (← hexValue? a) * 16 + (← hexValue? b)
    let low := (← hexValue? c) * 16 + (← hexValue? d)
    return (high * 256 + low, rest)
  | _ => none

/-- The character behind a backslash and a `u`: one unit, or a leading and a trailing surrogate. -/
def readUnicode (cs : List Char) : Option (Char × List Char) := do
  let (unit, rest) ← readUnit cs
  if 0xDC00 ≤ unit && unit ≤ 0xDFFF then none
  else if 0xD800 ≤ unit && unit ≤ 0xDBFF then
    match rest with
    | '\\' :: 'u' :: rest =>
      let (low, rest) ← readUnit rest
      if 0xDC00 ≤ low && low ≤ 0xDFFF then
        some (Char.ofNat (0x10000 + (unit - 0xD800) * 0x400 + (low - 0xDC00)), rest)
      else none
    | _ => none
  else some (Char.ofNat unit, rest)

/-- The character behind a backslash. -/
def readEscape : List Char → Option (Char × List Char)
  | '"' :: rest => some ('"', rest)
  | '\\' :: rest => some ('\\', rest)
  | '/' :: rest => some ('/', rest)
  | 'b' :: rest => some ('\x08', rest)
  | 'f' :: rest => some ('\x0c', rest)
  | 'n' :: rest => some ('\n', rest)
  | 'r' :: rest => some ('\r', rest)
  | 't' :: rest => some ('\t', rest)
  | 'u' :: rest => readUnicode rest
  | _ => none

/-- What is left of a string whose opening quote has been read, and the text behind its closing
quote. `fuel` bounds the number of characters. -/
def readChars : (fuel : Nat) → List Char → Option (List Char × List Char)
  | 0, _ => none
  | _ + 1, [] => none
  | _ + 1, '"' :: rest => some ([], rest)
  | fuel + 1, '\\' :: rest => do
    let (c, rest) ← readEscape rest
    let (cs, rest) ← readChars fuel rest
    return (c :: cs, rest)
  | fuel + 1, c :: rest => do
    if c.toNat < 0x20 then none
    let (cs, rest) ← readChars fuel rest
    return (c :: cs, rest)

def readString (cs : List Char) : Option (String × List Char) :=
  (readChars (cs.length + 1) cs).map fun (s, rest) => (String.ofList s, rest)

/-! ## Numbers -/

def readDigits (cs : List Char) : List Char × List Char :=
  cs.span Char.isDigit

/-- The largest natural number of 64 bits. -/
def maxUnsigned : Nat :=
  18446744073709551615

/-- The magnitude of the smallest integer of 64 bits. -/
def maxMagnitude : Nat :=
  9223372036854775808

/-- Appends decimal digits to a number while it fits 64 bits; gives the number and the digits that
found no place. -/
def appendDigits (n : Nat) : List Char → Nat × List Char
  | [] => (n, [])
  | d :: ds =>
    let next := n * 10 + digitValue d
    if next ≤ maxUnsigned then appendDigits next ds else (n, d :: ds)

/-- The digits of a number text: before the point, and behind it when there is a point. -/
structure NumberText where
  negative : Bool
  whole : List Char
  fraction : Option (List Char)
  exponent : Option Int
  deriving DecidableEq, Repr

namespace NumberText

/-- What is no integer of 64 bits, signed or not, is a double. Digits that find no place in 64 bits
are dropped; those before the point leave their power of ten. -/
def toNumber? (t : NumberText) : Option Number := do
  let (significand, lost) := appendDigits 0 t.whole
  let (significand, unused) := appendDigits significand (t.fraction.getD [])
  let places : Int := lost.length + unused.length - (t.fraction.getD []).length
  let isInteger := t.fraction.isNone && t.exponent.isNone && lost.isEmpty
  if isInteger && !t.negative then return .int significand
  else if isInteger && 0 < significand && significand ≤ maxMagnitude then
    return .int (-significand)
  else
    let x ← Decimal.Binary64.ofDigits? significand (places + t.exponent.getD 0)
    return .float (if t.negative then x.neg else x)

end NumberText

/-- A nonempty run of digits. -/
def readDigits1 (cs : List Char) : Option (List Char × List Char) :=
  match readDigits cs with
  | ([], _) => none
  | found => some found

/-- No digit may follow a leading zero. -/
def readWhole (cs : List Char) : Option (List Char × List Char) := do
  let (ds, rest) ← readDigits1 cs
  match ds with
  | '0' :: _ :: _ => none
  | _ => some (ds, rest)

def readFraction : List Char → Option (Option (List Char) × List Char)
  | '.' :: rest => (readDigits1 rest).map fun (ds, rest) => (some ds, rest)
  | rest => some (none, rest)

def readExponentDigits (negative : Bool) (cs : List Char) : Option (Option Int × List Char) :=
  (readDigits1 cs).map fun (ds, rest) =>
    let n : Int := valueOf 10 ds
    (some (if negative then -n else n), rest)

def readExponent : List Char → Option (Option Int × List Char)
  | c :: rest =>
    if c == 'e' || c == 'E' then
      match rest with
      | '+' :: rest => readExponentDigits false rest
      | '-' :: rest => readExponentDigits true rest
      | rest => readExponentDigits false rest
    else some (none, c :: rest)
  | [] => some (none, [])

def readNumberText (cs : List Char) : Option (NumberText × List Char) := do
  let (negative, rest) := match cs with
    | '-' :: rest => (true, rest)
    | rest => (false, rest)
  let (whole, rest) ← readWhole rest
  let (fraction, rest) ← readFraction rest
  let (exponent, rest) ← readExponent rest
  return (⟨negative, whole, fraction, exponent⟩, rest)

def readNumber (cs : List Char) : Option (Json × List Char) := do
  let (text, rest) ← readNumberText cs
  return (.number (← text.toNumber?), rest)

/-! ## Values -/

/-- Items separated by commas up to `closing`, at least one. -/
def readItems {α : Type} (item : List Char → Option (α × List Char)) (closing : Char) :
    (fuel : Nat) → List Char → Option (List α × List Char)
  | 0, _ => none
  | fuel + 1, cs => do
    let (first, rest) ← item (skipSpace cs)
    match skipSpace rest with
    | c :: rest =>
      if c == ',' then
        let (items, rest) ← readItems item closing fuel rest
        return (first :: items, rest)
      else if c == closing then return ([first], rest)
      else none
    | [] => none

/-- Items between brackets whose opening one has been read, none or more. -/
def readEnclosed {α : Type} (item : List Char → Option (α × List Char)) (closing : Char)
    (cs : List Char) : Option (List α × List Char) :=
  match skipSpace cs with
  | [] => none
  | c :: rest =>
    if c == closing then some ([], rest) else readItems item closing (cs.length + 1) (c :: rest)

def readMember (value : List Char → Option (Json × List Char)) (cs : List Char) :
    Option ((String × Json) × List Char) :=
  match cs with
  | '"' :: rest => do
    let (key, rest) ← readString rest
    match skipSpace rest with
    | ':' :: rest =>
      let (j, rest) ← value (skipSpace rest)
      return ((key, j), rest)
    | _ => none
  | _ => none

/-- A repeated key keeps its first place and takes its last value. -/
def ofPairs (pairs : List (String × Json)) : Json :=
  .object (pairs.foldl (fun members (key, value) => Members.insert members key value) [])

/-- A literal name with its value. -/
def readName (name : String) (value : Json) (cs : List Char) : Option (Json × List Char) :=
  if name.toList.isPrefixOf cs then some (value, cs.drop name.length) else none

/-- A value within which `levels` arrays or objects may still be opened. -/
def readValue (levels : Nat) (cs : List Char) : Option (Json × List Char) :=
  match cs with
  | '"' :: rest => (readString rest).map fun (s, rest) => (.string s, rest)
  | '[' :: rest =>
    match levels with
    | 0 => none
    | levels + 1 =>
      (readEnclosed (readValue levels) ']' rest).map fun (items, rest) => (.array items, rest)
  | '\x7b' :: rest =>
    match levels with
    | 0 => none
    | levels + 1 =>
      (readEnclosed (readMember (readValue levels)) '\x7d' rest).map fun (pairs, rest) =>
        (ofPairs pairs, rest)
  | 'n' :: _ => readName "null" .null cs
  | 't' :: _ => readName "true" (.bool true) cs
  | 'f' :: _ => readName "false" (.bool false) cs
  | _ => readNumber cs

/-- The value of a text that holds nothing else, with at most `levels` levels of nesting. -/
def parseWithin? (levels : Nat) (text : String) : Option Json := do
  let (j, rest) ← readValue levels (skipSpace text.toList)
  if (skipSpace rest).isEmpty then some j else none

/-- At most 127 levels of arrays and objects. -/
def parse? (text : String) : Option Json :=
  parseWithin? 127 text

end FolderFlow.Json
