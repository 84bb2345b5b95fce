import FolderFlow.Shell.Builtin.Basic
import FolderFlow.Shell.Builtin.Number

/-!
# Writing

The commands that write their arguments: as they are, or as a format says. A format is used again as
long as there are arguments left.
-/

namespace FolderFlow.Shell

/-! ## Escapes -/

def isOctal (c : Char) : Bool :=
  '0' ≤ c && c ≤ '7'

/-- What stands for an escape whose backslash has been read. A backslash that escapes nothing stands
for itself. -/
def escape : List Char → Char × List Char
  | 'a' :: rest => ('\x07', rest)
  | 'b' :: rest => ('\x08', rest)
  | 'e' :: rest => ('\x1b', rest)
  | 'f' :: rest => ('\x0c', rest)
  | 'n' :: rest => ('\n', rest)
  | 'r' :: rest => ('\x0d', rest)
  | 't' :: rest => ('\t', rest)
  | 'v' :: rest => ('\x0b', rest)
  | '\\' :: rest => ('\\', rest)
  | rest =>
    match (rest.take 3).takeWhile isOctal with
    | [] => ('\\', rest)
    | ds => (Char.ofNat (Text.valueOf 8 ds % 256), rest.drop ds.length)

/-- A text with its escapes, and whether it goes on behind its end. An octal number may have a zero
in front, and one escape ends all output. -/
def escaped : (fuel : Nat) → List Char → List Char × Bool
  | 0, _ => ([], true)
  | _ + 1, [] => ([], true)
  | _ + 1, '\\' :: 'c' :: _ => ([], false)
  | fuel + 1, '\\' :: '0' :: rest =>
    let digits := if (rest.takeWhile isOctal).isEmpty then '0' :: rest else rest
    let (first, rest) := escape digits
    let (more, goesOn) := escaped fuel rest
    (first :: more, goesOn)
  | fuel + 1, '\\' :: rest =>
    let (first, rest) := escape rest
    let (more, goesOn) := escaped fuel rest
    (first :: more, goesOn)
  | fuel + 1, c :: rest =>
    let (more, goesOn) := escaped fuel rest
    (c :: more, goesOn)

def escapedText (text : String) : String × Bool :=
  let (cs, goesOn) := escaped (text.length + 1) text.toList
  (String.ofList cs, goesOn)

def echo : Builtin := fun args => do
  let (words, ending) : List String × String := match args with
    | "-n" :: words => (words, "")
    | words => (words, "\n")
  let (text, goesOn) := escapedText (" ".intercalate words)
  write (if goesOn then text ++ ending else text)
  return 0

/-! ## Formats -/

/-- A pass over a format: what it has written, the arguments that are left, and whether one of them
was no number. -/
structure Formatting where
  text : String := ""
  args : List String
  faulty : Bool := false
  /-- Whether an escape has ended all output. -/
  stopped : Bool := false

abbrev Format := StateT Formatting Exec

namespace Format

def put (text : String) : Format Unit :=
  modify fun f => { f with text := f.text ++ text }

/-- A fault of the format itself. What has been written before stays. -/
def fail {α : Type} (text : String) : Format α := do
  setStatus 2
  complain text
  write (← get).text
  throw .fault

/-- The next argument, if there is one. -/
def next? : Format (Option String) := do
  let f ← get
  set { f with args := f.args.drop 1 }
  return f.args.head?

def complainOf (text : String) : Format Unit := do
  complain text
  modify fun f => { f with faulty := true }

/-- Complains about what a number leaves of an argument. -/
def check (text : String) (count : Nat) (overflow : Bool) : Format Unit := do
  if count < text.length then
    complainOf (text ++ if count = 0 then ": expected numeric value" else
      ": not completely converted")
  else if overflow then complainOf (text ++ ": Numerical result out of range")

/-- The character behind a quote stands for its number. -/
def quotedNumber? (text : String) : Option Nat :=
  match text.toList with
  | c :: rest => if c == '"' || c == '\'' then some ((rest.head?.map Char.toNat).getD 0) else none
  | [] => none

/-- The whole number that a text begins with, and the count of its characters. -/
def readWhole (cs : List Char) : Int × Nat :=
  let blanks := (cs.takeWhile isBlankByte).length
  let (sign, signs, cs) : Int × Nat × List Char := match cs.drop blanks with
    | '-' :: rest => (-1, 1, rest)
    | '+' :: rest => (1, 1, rest)
    | rest => (1, 0, rest)
  let (n, rest) := readMagnitude cs
  let count := cs.length - rest.length
  if count = 0 then (0, 0) else (sign * n, blanks + signs + count)

/-- The next argument as a whole number. -/
def whole : Format Int := do
  match ← next? with
  | none => return 0
  | some text =>
    match quotedNumber? text with
    | some n => return n
    | none =>
      let (n, count) := readWhole text.toList
      check text count (!inRange n)
      return max minInteger (min maxInteger n)

/-- The next argument as a whole number without a sign. -/
def wholeUnsigned : Format Nat := do
  match ← next? with
  | none => return 0
  | some text =>
    match quotedNumber? text with
    | some n => return n
    | none =>
      let (n, count) := readWhole text.toList
      let overflow := decide (0x10000000000000000 ≤ n.natAbs)
      check text count overflow
      return if overflow then 0x10000000000000000 - 1 else (n % 0x10000000000000000).toNat

def fraction : Format Layout.Fraction := do
  match ← next? with
  | none => return .finite (Decimal.Binary64.zero false)
  | some text =>
    match quotedNumber? text with
    | some n =>
      return ((Decimal.Binary64.ofNat? n).map Layout.Fraction.finite).getD (.infinite false)
    | none =>
      let reading := readFraction text.toList
      check text reading.count reading.outOfRange
      return reading.value

/-! ## Directives -/

def flag? (l : Layout) : Char → Option Layout
  | '-' => some { l with left := true }
  | '+' => some { l with plus := true }
  | ' ' => some { l with space := true }
  | '#' => some { l with alternate := true }
  | '0' => some { l with zeros := true }
  | _ => none

def flags (l : Layout) : List Char → Layout × List Char
  | [] => (l, [])
  | c :: cs =>
    match flag? l c with
    | some l => flags l cs
    | none => (l, c :: cs)

/-- A number in a directive, or a star for the next argument, of which 32 bits count. -/
def count (cs : List Char) : Format (Option Int × List Char) := do
  match cs with
  | '*' :: rest => return (some ((← whole).bmod (0x100000000)), rest)
  | cs =>
    let digits := cs.takeWhile Char.isDigit
    if digits.isEmpty then return (none, cs)
    else return (some (Text.valueOf 10 digits : Nat), cs.drop digits.length)

/-- What stands before the letter of a directive. -/
def layout (cs : List Char) : Format (Layout × List Char) := do
  let (l, cs) := flags {} cs
  let (width, cs) ← count cs
  let width := width.getD 0
  let l := { l with width := width.natAbs, left := l.left || width < 0 }
  match cs with
  | '.' :: cs =>
    let (precision, cs) ← count cs
    let precision := precision.getD 0
    return ({ l with precision := if precision < 0 then none else some precision.toNat }, cs)
  | cs => return (l, cs)

/-- Fails if no text can be as long as a layout asks for. -/
def checkSize (l : Layout) : Format Unit := do
  if 0x80000000 ≤ max l.width (l.precision.getD 0) then fail "xvsnprintf failed"

def directive (l : Layout) (letter : Char) (source : String) : Format Unit := do
  match letter with
  | 's' =>
    let text := (← next?).getD ""
    checkSize l
    put (l.text text)
  | 'b' =>
    let (text, goesOn) := escapedText ((← next?).getD "")
    checkSize l
    put (l.text text)
    if !goesOn then modify fun f => { f with stopped := true }
  | 'c' =>
    let c := ((← next?).bind fun s => s.toList.head?).getD '\x00'
    checkSize l
    put (l.fill false "" (String.singleton c))
  | 'd' | 'i' =>
    let n ← whole
    checkSize l
    put (l.signed n)
  | 'o' | 'u' | 'x' | 'X' =>
    let n ← wholeUnsigned
    checkSize l
    put (l.unsigned letter n)
  | 'a' | 'A' | 'e' | 'E' | 'f' | 'F' | 'g' | 'G' =>
    let n ← fraction
    checkSize l
    put (l.fraction letter n)
  | _ => fail (source ++ ": invalid directive")

/-- One pass over a format. -/
def pass : (fuel : Nat) → List Char → Format Unit
  | 0, _ => return ()
  | _, [] => return ()
  | fuel + 1, c :: cs => do
    match c, cs with
    | '\\', cs =>
      let (c, cs) := escape cs
      put (String.singleton c)
      pass fuel cs
    | '%', '%' :: cs =>
      put "%"
      pass fuel cs
    | '%', cs =>
      let (l, rest) ← layout cs
      match rest with
      | [] => fail "missing format character"
      | letter :: rest =>
        let source := String.ofList ('%' :: cs.take (cs.length - rest.length))
        directive l letter source
        if !(← get).stopped then pass fuel rest
    | c, cs =>
      put (String.singleton c)
      pass fuel cs

/-- Passes as long as they take arguments and some are left. -/
def passes (format : List Char) : (fuel : Nat) → Format Unit
  | 0 => return ()
  | fuel + 1 => do
    let before := (← get).args.length
    pass (format.length + 1) format
    let f ← get
    if !f.stopped && !f.args.isEmpty && f.args.length < before then passes format fuel

end Format

def printf : Builtin := fun args => do
  match ← withoutOptions args with
  | [] => fault "usage: printf format [arg ...]"
  | format :: args =>
    let (_, f) ← (Format.passes format.toList (args.length + 1)).run { args }
    write f.text
    return if f.faulty then 1 else 0

end FolderFlow.Shell
