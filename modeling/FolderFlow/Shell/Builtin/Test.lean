import FolderFlow.Shell.Builtin.Basic

/-!
# Tests

Questions about texts, numbers and files. The words of a question are read from left to right, and
what a word means hangs on those behind it.
-/

namespace FolderFlow.Shell

namespace Test

inductive Kind where
  | unary
  | binary
  | not
  | and
  | or
  | leftParen
  | rightParen
  /-- There is no word. -/
  | missing
  deriving DecidableEq, Repr

def kind? (word : String) : Option Kind :=
  if ["-r", "-w", "-x", "-e", "-f", "-d", "-c", "-b", "-p", "-u", "-g", "-k", "-s", "-t", "-z",
      "-n", "-h", "-O", "-G", "-L", "-S"].contains word then some .unary
  else if ["=", "!=", "<", ">", "-eq", "-ne", "-ge", "-gt", "-le", "-lt", "-nt", "-ot",
      "-ef"].contains word then some .binary
  else
    match word with
    | "!" => some .not
    | "-a" => some .and
    | "-o" => some .or
    | "(" => some .leftParen
    | ")" => some .rightParen
    | _ => none

/-- The words of a question, and which one is read. -/
structure Question where
  words : List String
  place : Nat := 0

abbrev Ask := StateT Question Exec

def word? (ahead : Nat) : Ask (Option String) := do
  let q ← get
  return q.words[q.place + ahead]?

def forward (count : Nat) : Ask Unit :=
  modify fun q => { q with place := q.place + count }

def fail {α : Type} (word text : String) : Ask α :=
  Shell.fault (if word.isEmpty then text else word ++ ": " ++ text)

/-- Whether a word that could ask something is only a text. -/
def isOperand (ahead : Nat) : Ask Bool := do
  match ← word? (ahead + 1), ← word? (ahead + 2) with
  | none, _ => return true
  | some _, none => return false
  | some word, some _ => return kind? word == some .binary

/-- What a word is, if it is no text. -/
def kindAt? (ahead : Nat) : Ask (Option Kind) := do
  let word ← word? ahead
  match if word.isNone then some .missing else word.bind kind? with
  | some .unary => return if ← isOperand ahead then none else some .unary
  | some .leftParen => return if (← word? (ahead + 1)).isNone then none else some .leftParen
  | kind => return kind

/-! ## Questions -/

def isDevice (s : State) (path : String) : Bool :=
  match s.locate path with
  | .ok loc => loc == nullFile
  | .error _ => false

def found? (s : State) (path : String) : Option Entry :=
  match s.locate path with
  | .ok loc => s.tree.find? loc
  | .error _ => none

def isFile (s : State) (path : String) : Bool :=
  (found? s path).any (!·.isDir) && !isDevice s path

def isProgram (s : State) (path : String) : Bool :=
  match s.locate path with
  | .ok loc => loc == shellFile
  | .error _ => false

def askUnary (operator arg : String) : Ask Bool := do
  let s ← (get : Exec State)
  let entry := found? s arg
  match operator with
  | "-n" => return !arg.isEmpty
  | "-z" => return arg.isEmpty
  | "-e" | "-r" | "-w" | "-O" | "-G" => return entry.isSome
  | "-d" => return entry.any Entry.isDir
  | "-x" => return entry.any Entry.isDir || isProgram s arg
  | "-f" => return isFile s arg
  | "-c" => return isDevice s arg
  | "-s" =>
    return !isDevice s arg && entry.any fun
      | .dir => true
      | .file bytes => 0 < bytes.size || isProgram s arg
  | "-t" =>
    let _ ← (integer arg : Exec Int)
    return false
  | _ => return false

def askBinary (a operator b : String) : Ask Bool := do
  match operator with
  | "=" => return a == b
  | "!=" => return a != b
  | "<" => return !Text.atMost b a
  | ">" => return !Text.atMost a b
  | "-nt" | "-ot" => return false
  | "-ef" =>
    let s ← (get : Exec State)
    return match s.locate a, s.locate b with
      | .ok m, .ok n => m == n
      | _, _ => false
  | _ =>
    let m ← (integer a : Exec Int)
    let n ← (integer b : Exec Int)
    return match operator with
      | "-eq" => m == n
      | "-ne" => m != n
      | "-lt" => m < n
      | "-le" => m ≤ n
      | "-gt" => n < m
      | _ => n ≤ m

mutual

def disjunction : (fuel : Nat) → (kind : Option Kind) → Ask Bool
  | 0, _ => return false
  | fuel + 1, kind => do
    let first ← conjunction fuel kind
    if (← kindAt? 1) == some .or then
      forward 2
      let second ← disjunction fuel (← kindAt? 0)
      return first || second
    else return first

def conjunction : (fuel : Nat) → (kind : Option Kind) → Ask Bool
  | 0, _ => return false
  | fuel + 1, kind => do
    let first ← negation fuel kind
    if (← kindAt? 1) == some .and then
      forward 2
      let second ← conjunction fuel (← kindAt? 0)
      return first && second
    else return first

def negation : (fuel : Nat) → (kind : Option Kind) → Ask Bool
  | 0, _ => return false
  | fuel + 1, kind => do
    if kind == some .not then
      let kind ← kindAt? 1
      if (← word? 1).isSome then forward 1
      return !(← negation fuel kind)
    else primary fuel kind

/-- A question without a word is answered in the negative. -/
def primary : (fuel : Nat) → (kind : Option Kind) → Ask Bool
  | 0, _ => return false
  | fuel + 1, kind => do
    match ← word? 0 with
    | none => return false
    | some word =>
      match kind with
      | some .missing => return false
      | some .not | some .and | some .or | some .rightParen | some .binary | none =>
        if (← word? 1).isSome && (← kindAt? 1) == some .binary then
          let operator := (← word? 1).getD ""
          forward 2
          match ← word? 0 with
          | some second => askBinary word operator second
          | none => fail operator "argument expected"
        else return !word.isEmpty
      | some .leftParen =>
        forward 1
        let kind ← kindAt? 0
        if kind == some .rightParen then return false
        let answer ← disjunction fuel kind
        forward 1
        if (← kindAt? 0) != some .rightParen then Shell.fault "closing paren expected"
        return answer
      | some .unary =>
        forward 1
        match ← word? 0 with
        | some arg => askUnary word arg
        | none => fail word "argument expected"

end

/-- The words of a question of three or four, of which a negation or parentheses are taken off, and
whether the answer is turned round. -/
def simplify : (fuel : Nat) → (inverted : Bool) → List String → Bool × Option (List String)
  | 0, inverted, _ => (inverted, none)
  | fuel + 1, inverted, words =>
    let inside (words : List String) : Bool × Option (List String) :=
      match words with
      | "!" :: rest => if rest.isEmpty then (true, none) else simplify fuel true rest
      | "(" :: rest =>
        (inverted, some (if rest.getLast? == some ")" then rest.dropLast else words))
      | words => (inverted, some words)
    match words with
    | [] => (inverted, none)
    | [_, operator, _] =>
      if kind? operator == some .binary then (inverted, some words) else inside words
    | [_, _, _, _] => inside words
    | words => (inverted, some words)

def answer (words : List String) : Exec Bool := do
  match simplify (words.length + 1) false words with
  | (inverted, none) => return inverted
  | (inverted, some words) =>
    let isBinary := words.length == 3 && (words[1]?.bind kind?) == some .binary
    let ask : Ask Bool := do
      let kind ← if isBinary then pure none else kindAt? 0
      let answer ← disjunction (4 * words.length + 8) kind
      match ← word? 0, ← word? 1 with
      | some word, some _ => fail word "unexpected operator"
      | _, _ => return answer
    let (answer, _) ← ask.run { words }
    return answer != inverted

end Test

def test : Builtin := fun words => do
  return if ← Test.answer words then 0 else 1

/-- A test between brackets. The last word counts as one if it begins with one. -/
def bracketTest : Builtin := fun words => do
  if !words.getLast?.any fun w => w.toList.head? == some ']' then fault "missing ]"
  return if ← Test.answer words.dropLast then 0 else 1

end FolderFlow.Shell
