import FolderFlow.Text.Hex

/-!
# TOML dates and times

A date, a time, or both with or without an offset. Every date is a day of the calendar. The text of
a moment is normal: `T` between date and time, `Z` in upper case, and no zeros at the end of the
fraction, which has nine digits at most.
-/

namespace FolderFlow.Toml

open Text (digitValue valueOf)

/-- Exactly `count` digits as a number, behind `n`. -/
def readPlaces (n : Nat) : (count : Nat) → List Char → Option (Nat × List Char)
  | 0, cs => some (n, cs)
  | _ + 1, [] => none
  | count + 1, c :: cs =>
    if c.isDigit then readPlaces (n * 10 + digitValue c) count cs else none

/-- A number of `count` digits between two bounds. -/
def readWithin (count lo hi : Nat) (cs : List Char) : Option (Nat × List Char) := do
  let (n, rest) ← readPlaces 0 count cs
  if lo ≤ n && n ≤ hi then some (n, rest) else none

def readChar (c : Char) : List Char → Option (List Char)
  | [] => none
  | d :: rest => if c == d then some rest else none

/-- A number in `count` digits, with zeros in front. -/
def places (count n : Nat) : List Char :=
  let ds := Nat.toDigits 10 n
  List.replicate (count - ds.length) '0' ++ ds

/-! ## Dates -/

structure Date where
  year : Nat
  month : Nat
  day : Nat
  deriving DecidableEq, Repr

def isLeapYear (year : Nat) : Bool :=
  year % 4 == 0 && (year % 100 != 0 || year % 400 == 0)

def daysInMonth (year month : Nat) : Nat :=
  if month == 2 then (if isLeapYear year then 29 else 28)
  else if month == 4 || month == 6 || month == 9 || month == 11 then 30
  else 31

def readDate (cs : List Char) : Option (Date × List Char) := do
  let (year, rest) ← readPlaces 0 4 cs
  let rest ← readChar '-' rest
  let (month, rest) ← readWithin 2 1 12 rest
  let rest ← readChar '-' rest
  let (day, rest) ← readWithin 2 1 (daysInMonth year month) rest
  return (⟨year, month, day⟩, rest)

def Date.text (d : Date) : List Char :=
  places 4 d.year ++ '-' :: places 2 d.month ++ '-' :: places 2 d.day

/-! ## Times -/

/-- A time of day; a minute may end with a leap second. -/
structure Time where
  hour : Nat
  minute : Nat
  second : Nat
  nanosecond : Nat
  deriving DecidableEq, Repr

/-- Digits behind the ninth are dropped. -/
def readFraction : List Char → Option (Nat × List Char)
  | '.' :: rest =>
    match rest.span Char.isDigit with
    | ([], _) => none
    | (ds, rest) =>
      let ds := (ds ++ List.replicate 9 '0').take 9
      some (valueOf 10 ds, rest)
  | rest => some (0, rest)

def readTime (cs : List Char) : Option (Time × List Char) := do
  let (hour, rest) ← readWithin 2 0 23 cs
  let rest ← readChar ':' rest
  let (minute, rest) ← readWithin 2 0 59 rest
  let rest ← readChar ':' rest
  let (second, rest) ← readWithin 2 0 60 rest
  let (nanosecond, rest) ← readFraction rest
  return (⟨hour, minute, second, nanosecond⟩, rest)

def Time.text (t : Time) : List Char :=
  let fraction := ((places 9 t.nanosecond).reverse.dropWhile (· == '0')).reverse
  places 2 t.hour ++ ':' :: places 2 t.minute ++ ':' :: places 2 t.second ++
    if fraction.isEmpty then [] else '.' :: fraction

/-! ## Offsets -/

inductive Offset where
  | utc
  | minutes (negative : Bool) (count : Nat)
  deriving DecidableEq, Repr

def readOffset (cs : List Char) : Option (Option Offset × List Char) :=
  let signed (negative : Bool) (cs : List Char) : Option (Option Offset × List Char) := do
    let (hour, rest) ← readWithin 2 0 23 cs
    let rest ← readChar ':' rest
    let (minute, rest) ← readWithin 2 0 59 rest
    return (some (.minutes negative (hour * 60 + minute)), rest)
  match cs with
  | 'Z' :: rest => some (some .utc, rest)
  | 'z' :: rest => some (some .utc, rest)
  | '+' :: rest => signed false rest
  | '-' :: rest => signed true rest
  | rest => some (none, rest)

/-- An offset of no minutes has a plus sign. -/
def Offset.text : Offset → List Char
  | utc => ['Z']
  | minutes negative count =>
    (if negative && count != 0 then '-' else '+') ::
      places 2 (count / 60) ++ ':' :: places 2 (count % 60)

/-! ## Both -/

inductive DateTime where
  | date (d : Date)
  | time (t : Time)
  | moment (d : Date) (t : Time) (offset : Option Offset)
  deriving DecidableEq, Repr

/-- The text begins with an hour and a colon. -/
def beginsTime (cs : List Char) : Bool :=
  ((readWithin 2 0 23 cs).bind fun (_, rest) => readChar ':' rest).isSome

/-- The text begins with a year and a hyphen. -/
def beginsDate (cs : List Char) : Bool :=
  ((readPlaces 0 4 cs).bind fun (_, rest) => readChar '-' rest).isSome

/-- A time belongs to a date when `T` or one space stands between them. -/
def readMoment (d : Date) (cs : List Char) : Option (DateTime × List Char) :=
  match cs with
  | c :: rest =>
    if (c == 'T' || c == 't' || c == ' ') && beginsTime rest then do
      let (t, rest) ← readTime rest
      let (offset, rest) ← readOffset rest
      return (.moment d t offset, rest)
    else some (.date d, c :: rest)
  | [] => some (.date d, [])

/-- To be used where `beginsDate` or `beginsTime` holds. -/
def readDateTime (cs : List Char) : Option (DateTime × List Char) :=
  if beginsDate cs then (readDate cs).bind fun (d, rest) => readMoment d rest
  else (readTime cs).map fun (t, rest) => (.time t, rest)

def DateTime.text : DateTime → List Char
  | date d => d.text
  | time t => t.text
  | moment d t offset => d.text ++ 'T' :: t.text ++ (offset.map Offset.text).getD []

end FolderFlow.Toml
