import FolderFlow.Toml.DateTime
import FolderFlow.Toml.Number
import FolderFlow.Toml.Table

/-!
# Reading TOML

A document of TOML 1.0 as a JSON value. The reader of a value recurses on the number of levels that
may still be opened, lists and documents on the text that is left.
-/

namespace FolderFlow.Toml

/-! ## Values -/

def readKeyOf (cs : List Char) : Option (Key × List Char) := do
  let (parts, rest) ← readKey cs
  let last ← parts.getLast?
  return (⟨parts.dropLast, last⟩, rest)

/-- A date or time stands in JSON as an object of one member. -/
def momentJson (d : DateTime) : Json :=
  .object [("$__toml_private_datetime", .string (String.ofList d.text))]

/-- Values between brackets, up to the closing one; a comma may follow the last. -/
def readItems (value : List Char → Option (Json × List Char)) :
    (fuel : Nat) → List Char → Option (List Json × List Char)
  | 0, _ => none
  | fuel + 1, cs => do
    match ← skipLines (cs.length + 1) cs with
    | ']' :: rest => return ([], rest)
    | start =>
      let (item, rest) ← value start
      match ← skipLines (rest.length + 1) rest with
      | ',' :: rest =>
        let (items, rest) ← readItems value fuel rest
        return (item :: items, rest)
      | ']' :: rest => return ([item], rest)
      | _ => none

/-- A key, an equals sign and a value. -/
def readPair (value : List Char → Option (Json × List Char)) (cs : List Char) :
    Option ((Key × Json) × List Char) := do
  let (key, rest) ← readKeyOf cs
  match rest with
  | '=' :: rest =>
    let (j, rest) ← value (skipSpace rest)
    return ((key, j), rest)
  | _ => none

/-- Pairs up to the closing brace, on one line and without a comma behind the last. -/
def readPairs (value : List Char → Option (Json × List Char)) :
    (fuel : Nat) → List Char → Option (List (Key × Json) × List Char)
  | 0, _ => none
  | fuel + 1, cs => do
    let (pair, rest) ← readPair value cs
    match skipSpace rest with
    | ',' :: rest =>
      let (pairs, rest) ← readPairs value fuel rest
      return (pair :: pairs, rest)
    | '\x7d' :: rest => return ([pair], rest)
    | _ => none

def readInline (value : List Char → Option (Json × List Char)) (cs : List Char) :
    Option (Json × List Char) :=
  match skipSpace cs with
  | '\x7d' :: rest => (inlineTable []).map fun j => (j, rest)
  | _ => do
    let (pairs, rest) ← readPairs value (cs.length + 1) cs
    return (← inlineTable pairs, rest)

def readName (name : String) (j : Json) (cs : List Char) : Option (Json × List Char) :=
  if name.toList.isPrefixOf cs then some (j, cs.drop name.length) else none

def readScalarValue (cs : List Char) : Option (Json × List Char) :=
  match cs with
  | '"' :: _ => (readString cs).map fun (s, rest) => (.string s, rest)
  | '\'' :: _ => (readString cs).map fun (s, rest) => (.string s, rest)
  | 't' :: _ => readName "true" (.bool true) cs
  | 'f' :: _ => readName "false" (.bool false) cs
  | _ =>
    if beginsDate cs || beginsTime cs then
      (readDateTime cs).map fun (d, rest) => (momentJson d, rest)
    else readNumber cs

/-- A value within which `levels` arrays or inline tables may still be opened. -/
def readValue (levels : Nat) (cs : List Char) : Option (Json × List Char) :=
  match cs, levels with
  | '[' :: _, 0 => none
  | '\x7b' :: _, 0 => none
  | '[' :: rest, levels + 1 =>
    (readItems (readValue levels) (rest.length + 1) rest).map fun (items, rest) =>
      (.array items, rest)
  | '\x7b' :: rest, levels + 1 => readInline (readValue levels) rest
  | _, _ => readScalarValue cs

/-! ## Documents -/

/-- A header, whose closing brackets follow its key. -/
def readHeader (cs : List Char) : Option (Statement × List Char) :=
  match cs with
  | '[' :: '[' :: rest => do
    let (key, rest) ← readKeyOf rest
    match rest with
    | ']' :: ']' :: rest => return (.openItem key, rest)
    | _ => none
  | '[' :: rest => do
    let (key, rest) ← readKeyOf rest
    match rest with
    | ']' :: rest => return (.openTable key, rest)
    | _ => none
  | _ => none

def readStatement (cs : List Char) : Option (Statement × List Char) :=
  match cs with
  | '[' :: _ => readHeader cs
  | _ => (readPair (readValue (maxDepth - 1)) cs).map fun ((key, j), rest) => (.assign key j, rest)

/-- The statements of a document, one a line, with blank lines and comments between them. -/
def readStatements : (fuel : Nat) → List Char → Option (List Statement)
  | 0, _ => none
  | fuel + 1, cs =>
    match skipComment (skipSpace cs) with
    | [] => some []
    | rest =>
      match newline? rest with
      | some rest => readStatements fuel rest
      | none => do
        let (statement, rest) ← readStatement (skipSpace cs)
        let statements ← readStatements fuel (← lineEnd? rest)
        return statement :: statements

/-- A byte order mark may stand at the beginning. -/
def parse? (text : String) : Option Json := do
  let cs := match text.toList with
    | '\uFEFF' :: cs => cs
    | cs => cs
  let statements ← readStatements (cs.length + 1) cs
  let document ← Document.ofStatements statements
  return document.toJson

end FolderFlow.Toml
