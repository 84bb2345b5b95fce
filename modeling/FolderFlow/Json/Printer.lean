import FolderFlow.Decimal.Shortest
import FolderFlow.Json.Basic

/-!
# JSON text

Two layouts of a value: compact, with no space at all, and pretty, with one item a line and two
spaces a level. Both write strings and numbers alike.
-/

namespace FolderFlow.Json

/-! ## Numbers -/

def digits (n : Nat) : List Char :=
  Nat.toDigits 10 n

def zeros (n : Nat) : List Char :=
  List.replicate n '0'

/-- Decimal exponents -5 to 15 are written positionally with at least one place behind the point,
others with a signed exponent. -/
def renderDecimal (ds : List Char) (exponent : Int) : List Char :=
  let leading := exponent + ds.length - 1
  if -5 ≤ leading && leading ≤ 15 then
    if 0 ≤ exponent then ds ++ zeros exponent.toNat ++ ['.', '0']
    else if 0 ≤ leading then
      let whole := ds.length - (-exponent).toNat
      ds.take whole ++ '.' :: ds.drop whole
    else '0' :: '.' :: zeros (-leading - 1).toNat ++ ds
  else
    let fraction := match ds.drop 1 with
      | [] => []
      | more => '.' :: more
    let sign := if 0 ≤ leading then '+' else '-'
    ds.take 1 ++ fraction ++ 'e' :: sign :: digits leading.natAbs

def renderFloat (x : Decimal.Binary64) : List Char :=
  let sign := if x.negative then ['-'] else []
  if x.mantissa = 0 then sign ++ ['0', '.', '0']
  else
    let (d, exponent) := x.shortest
    sign ++ renderDecimal (digits d) exponent

def renderInt (n : Int) : List Char :=
  if n < 0 then '-' :: digits n.natAbs else digits n.natAbs

def renderNumber : Number → List Char
  | .int n => renderInt n
  | .float x => renderFloat x

/-! ## Strings -/

/-- The lower-case hexadecimal digit of a number below 16. -/
def hexDigit (n : Nat) : Char :=
  Nat.digitChar n

/-- A character inside a string. Only the quote, the backslash and what stands below U+0020 are
escaped. -/
def escapeChar (c : Char) : List Char :=
  match c with
  | '"' => ['\\', '"']
  | '\\' => ['\\', '\\']
  | '\x08' => ['\\', 'b']
  | '\x0c' => ['\\', 'f']
  | '\n' => ['\\', 'n']
  | '\r' => ['\\', 'r']
  | '\t' => ['\\', 't']
  | c =>
    if c.toNat < 0x20 then
      ['\\', 'u', '0', '0', hexDigit (c.toNat / 16), hexDigit (c.toNat % 16)]
    else [c]

/-- A string between quotes. -/
def quote (s : String) : List Char :=
  '"' :: s.toList.flatMap escapeChar ++ ['"']

/-! ## Compact layout -/

/-- Items between brackets, separated by commas. -/
def enclose (opening closing : Char) (items : List (List Char)) : List Char :=
  opening :: [','].intercalate items ++ [closing]

mutual

def renderChars : Json → List Char
  | .null => ['n', 'u', 'l', 'l']
  | .bool true => ['t', 'r', 'u', 'e']
  | .bool false => ['f', 'a', 'l', 's', 'e']
  | .number n => renderNumber n
  | .string s => quote s
  | .array items => enclose '[' ']' (renderItems items)
  | .object members => enclose '\x7b' '\x7d' (renderMembers members)

def renderItems : List Json → List (List Char)
  | [] => []
  | item :: items => renderChars item :: renderItems items

def renderMembers : List (String × Json) → List (List Char)
  | [] => []
  | (key, value) :: members => (quote key ++ ':' :: renderChars value) :: renderMembers members

end

/-- The compact text of a value. -/
def render (j : Json) : String :=
  String.ofList j.renderChars

/-! ## Pretty layout -/

/-- A new line indented to a level. -/
def newline (level : Nat) : List Char :=
  '\n' :: List.replicate (2 * level) ' '

/-- Items between brackets, one a line; no lines when there are none. -/
def encloseLines (level : Nat) (opening closing : Char) (items : List (List Char)) : List Char :=
  if items.isEmpty then [opening, closing]
  else
    opening :: newline (level + 1) ++ (',' :: newline (level + 1)).intercalate items ++
      newline level ++ [closing]

mutual

def prettyChars (level : Nat) : Json → List Char
  | .null => renderChars .null
  | .bool b => renderChars (.bool b)
  | .number n => renderChars (.number n)
  | .string s => renderChars (.string s)
  | .array items => encloseLines level '[' ']' (prettyItems (level + 1) items)
  | .object members => encloseLines level '\x7b' '\x7d' (prettyMembers (level + 1) members)

def prettyItems (level : Nat) : List Json → List (List Char)
  | [] => []
  | item :: items => prettyChars level item :: prettyItems level items

def prettyMembers (level : Nat) : List (String × Json) → List (List Char)
  | [] => []
  | (key, value) :: members =>
    (quote key ++ ':' :: ' ' :: prettyChars level value) :: prettyMembers level members

end

/-- The pretty text of a value. -/
def pretty (j : Json) : String :=
  String.ofList (j.prettyChars 0)

end FolderFlow.Json
