import FolderFlow.Text.Hex

/-!
# TOML lexical elements

White space, comments, strings and keys of TOML 1.0. A reader takes characters from the front of a
text and gives back the rest, or nothing when the text does not begin with what it reads.
-/

namespace FolderFlow.Toml

open Text (hexValue?)

/-! ## White space and comments -/

def isSpace (c : Char) : Bool :=
  c == ' ' || c == '\t'

def skipSpace (cs : List Char) : List Char :=
  cs.dropWhile isSpace

/-- What may stand in a comment, and in a string but for what closes or escapes it. -/
def isPrintable (c : Char) : Bool :=
  c == '\t' || (0x20 ≤ c.toNat && c.toNat ≤ 0x7E) || 0x80 ≤ c.toNat

def skipComment (cs : List Char) : List Char :=
  match cs with
  | '#' :: rest => rest.dropWhile isPrintable
  | rest => rest

/-- A line feed, with or without a carriage return before it. -/
def newline? : List Char → Option (List Char)
  | '\n' :: rest => some rest
  | '\r' :: '\n' :: rest => some rest
  | _ => none

/-- The end of a line or of the text, behind white space and a comment. -/
def lineEnd? (cs : List Char) : Option (List Char) :=
  match skipComment (skipSpace cs) with
  | [] => some []
  | rest => newline? rest

/-- White space, comments and new lines, in any number. -/
def skipLines : (fuel : Nat) → List Char → Option (List Char)
  | 0, _ => none
  | fuel + 1, cs =>
    match skipSpace cs with
    | '#' :: rest => (newline? (skipComment ('#' :: rest))).bind (skipLines fuel)
    | '\n' :: rest => skipLines fuel rest
    | '\r' :: rest => (newline? ('\r' :: rest)).bind (skipLines fuel)
    | rest => some rest

/-- White space and new lines, without comments. -/
def skipBlank : (fuel : Nat) → List Char → List Char
  | 0, cs => cs
  | fuel + 1, cs =>
    match newline? (skipSpace cs) with
    | some rest => skipBlank fuel rest
    | none => skipSpace cs

/-! ## Strings -/

/-- A number of exactly `count` hexadecimal digits, behind `n`. -/
def readHex (n : Nat) : (count : Nat) → List Char → Option (Nat × List Char)
  | 0, cs => some (n, cs)
  | _ + 1, [] => none
  | count + 1, c :: cs => do readHex (n * 16 + (← hexValue? c)) count cs

/-- A code point that is no surrogate. -/
def readScalar (count : Nat) (cs : List Char) : Option (Char × List Char) := do
  let (n, rest) ← readHex 0 count cs
  if n < 0xD800 || (0xDFFF < n && n ≤ 0x10FFFF) then some (Char.ofNat n, rest) else none

/-- The character behind a backslash. -/
def readEscape : List Char → Option (Char × List Char)
  | 'b' :: rest => some ('\x08', rest)
  | 't' :: rest => some ('\t', rest)
  | 'n' :: rest => some ('\n', rest)
  | 'f' :: rest => some ('\x0c', rest)
  | 'r' :: rest => some ('\r', rest)
  | '"' :: rest => some ('"', rest)
  | '\\' :: rest => some ('\\', rest)
  | 'u' :: rest => readScalar 4 rest
  | 'U' :: rest => readScalar 8 rest
  | _ => none

/-- The rest of a string on one line, up to `quote`. Only strings in double quotes have escapes. -/
def readLine (quote : Char) : (fuel : Nat) → List Char → Option (List Char × List Char)
  | 0, _ => none
  | _ + 1, [] => none
  | fuel + 1, c :: cs =>
    if c == quote then some ([], cs)
    else if c == '\\' && quote == '"' then do
      let (d, cs) ← readEscape cs
      let (ds, cs) ← readLine quote fuel cs
      return (d :: ds, cs)
    else if isPrintable c then do
      let (ds, cs) ← readLine quote fuel cs
      return (c :: ds, cs)
    else none

/-- The number of quotes at the front of a text. -/
def countQuotes (quote : Char) : List Char → Nat
  | [] => 0
  | c :: cs => if c == quote then countQuotes quote cs + 1 else 0

/-- The rest of a string of many lines. Three quotes close it, behind one or two that belong to it;
new lines are read as line feeds, and a backslash at the end of a line hides the white space up to
the next character. -/
def readBlock (quote : Char) : (fuel : Nat) → List Char → Option (List Char × List Char)
  | 0, _ => none
  | _ + 1, [] => none
  | fuel + 1, c :: cs =>
    if c == quote then
      let count := countQuotes quote (c :: cs)
      if 3 ≤ count then
        let kept := min (count - 3) 2
        some (List.replicate kept quote, (c :: cs).drop (kept + 3))
      else do
        let (ds, rest) ← readBlock quote fuel ((c :: cs).drop count)
        return (List.replicate count quote ++ ds, rest)
    else if c == '\\' && quote == '"' then
      match newline? (skipSpace cs) with
      | some rest => readBlock quote fuel (skipBlank (rest.length + 1) rest)
      | none => do
        let (d, rest) ← readEscape cs
        let (ds, rest) ← readBlock quote fuel rest
        return (d :: ds, rest)
    else
      match newline? (c :: cs) with
      | some rest => do
        let (ds, rest) ← readBlock quote fuel rest
        return ('\n' :: ds, rest)
      | none =>
        if isPrintable c then do
          let (ds, rest) ← readBlock quote fuel cs
          return (c :: ds, rest)
        else none

/-- A string of one line whose opening quote has been read. -/
def readLineString (quote : Char) (cs : List Char) : Option (String × List Char) :=
  (readLine quote (cs.length + 1) cs).map fun (s, rest) => (String.ofList s, rest)

/-- A string of many lines whose opening quotes have been read. A new line right behind them is
dropped. -/
def readBlockString (quote : Char) (cs : List Char) : Option (String × List Char) :=
  let cs := (newline? cs).getD cs
  (readBlock quote (cs.length + 1) cs).map fun (s, rest) => (String.ofList s, rest)

def readString : List Char → Option (String × List Char)
  | '"' :: '"' :: '"' :: rest => readBlockString '"' rest
  | '"' :: rest => readLineString '"' rest
  | '\'' :: '\'' :: '\'' :: rest => readBlockString '\'' rest
  | '\'' :: rest => readLineString '\'' rest
  | _ => none

/-! ## Keys -/

def isBare (c : Char) : Bool :=
  c.isAlphanum || c == '_' || c == '-'

def readSimpleKey : List Char → Option (String × List Char)
  | '"' :: rest => readLineString '"' rest
  | '\'' :: rest => readLineString '\'' rest
  | cs =>
    match cs.span isBare with
    | ([], _) => none
    | (key, rest) => some (String.ofList key, rest)

/-- The parts of a dotted key, white space around each of them. -/
def readKeyParts : (fuel : Nat) → List Char → Option (List String × List Char)
  | 0, _ => none
  | fuel + 1, cs => do
    let (key, rest) ← readSimpleKey (skipSpace cs)
    match skipSpace rest with
    | '.' :: rest =>
      let (keys, rest) ← readKeyParts fuel rest
      return (key :: keys, rest)
    | rest => return ([key], rest)

/-- Keys and values may be nested up to this many levels, exclusive. -/
def maxDepth : Nat :=
  80

def readKey (cs : List Char) : Option (List String × List Char) := do
  let (keys, rest) ← readKeyParts (cs.length + 1) cs
  if keys.length < maxDepth then some (keys, rest) else none

end FolderFlow.Toml
