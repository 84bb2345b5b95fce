import FolderFlow.Shell.Effect
import FolderFlow.Text.Hex

/-!
# Arithmetic

Expressions over whole numbers of 64 bits, with the operators of C, assignments to variables among
them. An expression is worked out as it is read; what is not reached is read only.
-/

namespace FolderFlow.Shell

/-! ## Numbers -/

def isBlankByte (c : Char) : Bool :=
  c == ' ' || (9 ≤ c.toNat && c.toNat ≤ 13)

/-- The digits of a base at the beginning of a text. -/
def digitsOf (base : Nat) (cs : List Char) : List Char :=
  cs.takeWhile fun c => (Text.hexValue? c).any (· < base)

/-- A number in the base that its beginning shows, and what follows it. -/
def readMagnitude (cs : List Char) : Nat × List Char :=
  let read (base : Nat) (cs : List Char) : Nat × List Char :=
    let ds := digitsOf base cs
    (Text.valueOf base ds, cs.drop ds.length)
  match cs with
  | '0' :: x :: d :: rest =>
    if (x == 'x' || x == 'X') && (Text.hexValue? d).isSome then read 16 (d :: rest) else read 8 cs
  | '0' :: _ => read 8 cs
  | _ => read 10 cs

def maxInteger : Int :=
  0x8000000000000000 - 1

def minInteger : Int :=
  -0x8000000000000000

def inRange (n : Int) : Bool :=
  minInteger ≤ n && n ≤ maxInteger

/-- A number between blanks, in base 10 or in the base that it shows. Where none has to be there, an
empty text is zero. -/
def integerWith? (base : Option Nat) (text : String) : Option Int :=
  let cs := text.toList.dropWhile isBlankByte
  let (sign, cs) : Int × List Char := match cs with
    | '-' :: rest => (-1, rest)
    | '+' :: rest => (1, rest)
    | cs => (1, cs)
  let (n, rest) : Nat × List Char := match base with
    | some base =>
      let ds := digitsOf base cs
      (Text.valueOf base ds, cs.drop ds.length)
    | none => readMagnitude cs
  let n := sign * n
  let isMissing := rest.length == cs.length
  if !rest.all isBlankByte || !inRange n then none
  else if isMissing then if base.isNone && text.toList.all isBlankByte then some 0 else none
  else some n

def integer? (text : String) : Option Int :=
  integerWith? (some 10) text

/-- A number that can count something. -/
def natural? (text : String) : Option Nat :=
  match integer? text with
  | some (.ofNat n) => if n < 0x80000000 then some n else none
  | _ => none

namespace Arithmetic

/-! ## Tokens -/

inductive Token where
  | number (n : Int64)
  | name (s : String)
  | sign (s : String)
  | unknown
  deriving DecidableEq, Repr

/-- The signs, a longer one before those that it begins with. -/
def signs : List String :=
  ["<<=", ">>=", "==", "!=", "<=", ">=", "<<", ">>", "&&", "||", "+=", "-=", "*=", "/=", "%=",
    "&=", "|=", "^=", "=", "<", ">", "|", "&", "!", "(", ")", "*", "/", "%", "+", "-", "~", "^",
    "?", ":"]

def tokens : (fuel : Nat) → List Char → List Token
  | 0, _ => []
  | _ + 1, [] => []
  | fuel + 1, c :: cs =>
    if c == ' ' || c == '\t' || c == '\n' then tokens fuel cs
    else if c.isDigit then
      let (n, rest) := readMagnitude (c :: cs)
      .number (Int64.ofInt (min n maxInteger)) :: tokens fuel rest
    else if isNameStart c then
      let rest := cs.dropWhile isNameChar
      .name (String.ofList (c :: cs.takeWhile isNameChar)) :: tokens fuel rest
    else
      match signs.find? fun s => s.toList.isPrefixOf (c :: cs) with
      | some s => .sign s :: tokens fuel ((c :: cs).drop s.length)
      | none => [.unknown]

/-! ## Values -/

/-- An expression with what is left of it. -/
structure Source where
  text : String
  rest : List Token

abbrev Reckon := StateT Source Exec

def fail {α : Type} (what : String) : Reckon α := do
  let text := (← get).text
  Shell.fault ("arithmetic expression: " ++ what ++ ": \"" ++ text ++ "\"")

/-- The value of a variable, which must be a number; no value is zero. -/
def valueOf (name : String) : Exec Int64 := do
  let text := ((← get).value? name).getD ""
  match integerWith? none text with
  | some n => return Int64.ofInt n
  | none => fault ("Illegal number: " ++ text)

def ofBool (b : Bool) : Int64 :=
  if b then 1 else 0

/-- How loosely an operator between two values binds. -/
def looseness? (sign : String) : Option Nat :=
  match sign with
  | "*" | "/" | "%" => some 0
  | "+" | "-" => some 1
  | "<<" | ">>" => some 2
  | "<" | "<=" | ">" | ">=" => some 3
  | "==" | "!=" => some 4
  | "&" => some 5
  | "^" => some 6
  | "|" => some 7
  | _ => none

def apply (sign : String) (a b : Int64) : Reckon Int64 := do
  if b == 0 && (sign == "/" || sign == "%") then fail "division by zero"
  return match sign with
    | "*" => a * b
    | "/" => a / b
    | "%" => a % b
    | "+" => a + b
    | "-" => a - b
    | "<<" => a <<< b
    | ">>" => a >>> b
    | "<" => ofBool (a < b)
    | "<=" => ofBool (a ≤ b)
    | ">" => ofBool (b < a)
    | ">=" => ofBool (b ≤ a)
    | "==" => ofBool (a == b)
    | "!=" => ofBool (a != b)
    | "&" => a &&& b
    | "^" => a ^^^ b
    | "|" => a ||| b
    | _ => b

/-- The operator of an assignment; the plain one has none. -/
def assignment? (sign : String) : Option (Option String) :=
  if sign == "=" then some none
  else if sign == "==" || sign == "!=" || sign == "<=" || sign == ">=" then none
  else if sign.toList.getLast? == some '=' then some (some (String.ofList sign.toList.dropLast))
  else none

def peekSign? : Reckon (Option String) := do
  match (← get).rest with
  | .sign s :: _ => return some s
  | _ => return none

def skip (count : Nat) : Reckon Unit :=
  modify fun s => { s with rest := s.rest.drop count }

def accept (sign : String) : Reckon Bool := do
  if (← peekSign?) == some sign then
    skip 1
    return true
  else return false

/-! ## Expressions -/

mutual

def assignment : (fuel : Nat) → (reached : Bool) → Reckon Int64
  | 0, _ => fail "expecting primary"
  | fuel + 1, reached => do
    match (← get).rest with
    | .name name :: .sign s :: _ =>
      match assignment? s with
      | some operator =>
        skip 2
        let right ← assignment fuel reached
        if !reached then return right
        let value ← match operator with
          | some operator => apply operator (← valueOf name) right
          | none => pure right
        Shell.assign name (toString value.toInt)
        return value
      | none => condition fuel reached
    | _ => condition fuel reached

def condition : (fuel : Nat) → (reached : Bool) → Reckon Int64
  | 0, _ => fail "expecting primary"
  | fuel + 1, reached => do
    let test ← disjunction fuel reached
    if ← accept "?" then
      let first ← assignment fuel (reached && test != 0)
      if !(← accept ":") then fail "expecting ':'"
      let second ← condition fuel (reached && test == 0)
      return if test != 0 then first else second
    else return test

def disjunction : (fuel : Nat) → (reached : Bool) → Reckon Int64
  | 0, _ => fail "expecting primary"
  | fuel + 1, reached => do
    let first ← conjunction fuel reached
    if ← accept "||" then
      let second ← disjunction fuel (reached && first == 0)
      return ofBool (first != 0 || second != 0)
    else return first

def conjunction : (fuel : Nat) → (reached : Bool) → Reckon Int64
  | 0, _ => fail "expecting primary"
  | fuel + 1, reached => do
    let first ← operand fuel reached
    let first ← operations fuel reached 8 first
    if ← accept "&&" then
      let second ← conjunction fuel (reached && first != 0)
      return ofBool (first != 0 && second != 0)
    else return first

/-- The operations that bind closer than `limit`, behind their first value. -/
def operations : (fuel : Nat) → (reached : Bool) → (limit : Nat) → Int64 → Reckon Int64
  | 0, _, _, first => return first
  | fuel + 1, reached, limit, first => do
    match (← peekSign?).bind fun s => (looseness? s).map fun n => (s, n) with
    | some (sign, looseness) =>
      if looseness < limit then
        skip 1
        let second ← operand fuel reached
        let second ← operations fuel reached looseness second
        let result ← if reached then apply sign first second else pure second
        operations fuel reached limit result
      else return first
    | none => return first

def operand : (fuel : Nat) → (reached : Bool) → Reckon Int64
  | 0, _ => fail "expecting primary"
  | fuel + 1, reached => do
    match (← get).rest with
    | .number n :: _ =>
      skip 1
      return n
    | .name name :: _ =>
      skip 1
      if reached then valueOf name else return 0
    | .sign "(" :: _ =>
      skip 1
      let value ← assignment fuel reached
      if !(← accept ")") then fail "expecting ')'"
      return value
    | .sign "+" :: _ =>
      skip 1
      operand fuel reached
    | .sign "-" :: _ =>
      skip 1
      return -(← operand fuel reached)
    | .sign "!" :: _ =>
      skip 1
      return ofBool ((← operand fuel reached) == 0)
    | .sign "~" :: _ =>
      skip 1
      return ~~~(← operand fuel reached)
    | _ => fail "expecting primary"

end

def whole (fuel : Nat) : Reckon Int64 := do
  let value ← assignment fuel true
  if !(← get).rest.isEmpty then fail "expecting EOF"
  return value

/-- The value of an expression. -/
def evaluate (text : String) : Exec Int := do
  let rest := tokens (text.length + 1) text.toList
  let (value, _) ← (whole (8 * rest.length + 8)).run ⟨text, rest⟩
  return value.toInt

end Arithmetic

end FolderFlow.Shell
