import FolderFlow.Shell.Syntax

/-!
# Reading characters of a script

A reader holds what is left of a script with the number of its line, a token that has been put
back, and the documents: texts in the script that commands read as their input. A document begins
on the line behind the command that asks for it.
-/

namespace FolderFlow.Shell

/-- The sign of a redirection. -/
inductive Sign where
  | file (opening : Opening)
  | copy
  | document (stripTabs : Bool)
  deriving DecidableEq, Repr

inductive Token where
  | endOfFile
  | newline
  | semicolon
  | ampersand
  | and
  | or
  | pipe
  | leftParen
  | rightParen
  | endCase
  | reserved (name : String)
  | redirect (stream : Nat) (sign : Sign)
  | word (w : Word)

namespace Token

def inQuotes (text : String) : String :=
  "\"" ++ text ++ "\""

/-- A token as it is named in a complaint. -/
def describe : Token → String
  | endOfFile => "end of file"
  | newline => "newline"
  | semicolon => inQuotes ";"
  | ampersand => inQuotes "&"
  | and => inQuotes "&&"
  | or => inQuotes "||"
  | pipe => inQuotes "|"
  | leftParen => inQuotes "("
  | rightParen => inQuotes ")"
  | endCase => inQuotes ";;"
  | reserved name => inQuotes name
  | redirect .. => "redirection"
  | word _ => "word"

/-- Whether a list of commands may end before the token. -/
def endsList : Token → Bool
  | endOfFile | rightParen | endCase => true
  | reserved name => ["do", "done", "elif", "else", "esac", "fi", "then", "\x7d"].contains name
  | _ => false

end Token

/-- Why a text is no script, and where. -/
structure Fault where
  line : Nat
  text : String
  /-- How much of the text had not been read yet. -/
  left : Nat
  /-- How many lines had been asked for behind the first. -/
  asked : Nat
  deriving DecidableEq, Repr

/-- A document that is still to be read. -/
structure Pending where
  number : Nat
  mark : List Char
  /-- Whether nothing in it is substituted. -/
  literal : Bool
  stripTabs : Bool

/-- An alias whose text is being read. -/
structure Expanding where
  name : String
  /-- How much is left of the script behind its text. -/
  left : Nat
  /-- Whether its text ends in a blank, so that the next word may be an alias, too. -/
  goesOn : Bool

structure Reader where
  rest : List Char
  line : Nat
  pushed : Option Token
  pending : List Pending
  documents : List (Nat × Word)
  nextDocument : Nat
  /-- The texts that words stand for where a command may begin. -/
  aliases : List (String × String) := []
  expanding : List Expanding := []
  /-- The mark of the document that is being read, and whether tabs are dropped before it. -/
  endMark : Option (List Char × Bool) := none
  /-- How many lines have been asked for behind the first. -/
  asked : Nat := 0
  /-- Whether one more line is asked for when reading goes on. -/
  asksNext : Bool := false

/-- Whether the end of the text has been seen. -/
def Reader.isReadOut (r : Reader) : Bool :=
  match r.pushed with
  | some .endOfFile => true
  | _ => false

/-- A reader at the beginning of a text, given the documents that were read before it. -/
def Reader.start (text : String) (documents : List (Nat × Word)) : Reader where
  rest := text.toList
  line := 1
  pushed := none
  pending := []
  documents := documents
  nextDocument := documents.length

namespace Reader

/-- The text that a word stands for, unless it is a word of that text. -/
def aliasText? (r : Reader) (word : String) : Option String :=
  if r.expanding.any fun e => e.name == word && e.left ≤ r.rest.length then none
  else r.aliases.lookup word

def isBlank (c : Char) : Bool :=
  c == ' ' || c == '\t'

/-- Puts the text of an alias in front of what is left. -/
def expandAlias (r : Reader) (name text : String) : Reader :=
  let goesOn := (text.toList.getLast?).any isBlank
  { r with
    rest := text.toList ++ r.rest
    expanding := ⟨name, r.rest.length, goesOn⟩ :: r.expanding }

end Reader

abbrev Read := StateT Reader (Except Fault)

namespace Read

def fail {α : Type} (text : String) : Read α := do
  let r ← get
  throw ⟨r.line, "Syntax error: " ++ text, r.rest.length, r.asked⟩

def unexpected {α : Type} (t : Token) : Read α :=
  fail (t.describe ++ " unexpected")

def expected {α : Type} (t wanted : Token) : Read α :=
  fail (t.describe ++ " unexpected (expecting " ++ wanted.describe ++ ")")

def pushBack (t : Token) : Read Unit :=
  modify fun r => { r with pushed := some t }

/-! ## Characters -/

/-- The next character. -/
def next? : Read (Option Char) := do
  let r ← get
  match r.rest with
  | [] => return none
  | c :: rest =>
    if c == '\n' then set { r with rest, line := r.line + 1, asked := r.asked + 1 }
    else set { r with rest }
    return some c

/-- Takes the end of a line, where it is not yet known whether there is more to read. -/
def endLine : Read Unit :=
  modify fun r => { r with rest := r.rest.drop 1, line := r.line + 1, asksNext := true }

/-- Goes on with a line that may have to be asked for. -/
def goOn : Read Unit :=
  modify fun r =>
    if r.asksNext then { r with asked := r.asked + 1, asksNext := false } else r

def peek? : Read (Option Char) := do
  return (← get).rest.head?

/-- Drops characters of which none ends a line. -/
def drop (count : Nat) : Read Unit :=
  modify fun r => { r with rest := r.rest.drop count }

/-- The text behind the line ends that are escaped, and how many there are. -/
def dropJoins : List Char → List Char × Nat
  | '\\' :: '\n' :: rest =>
    let (rest, count) := dropJoins rest
    (rest, count + 1)
  | rest => (rest, 0)

/-- Passes over line ends that are escaped. -/
def join : Read Unit :=
  modify fun r =>
    let (rest, count) := dropJoins r.rest
    { r with rest, line := r.line + count, asked := r.asked + count }

/-- The next character where no line should end. If one does, it is not counted. -/
def uncounted? : Read (Option Char) := do
  join
  let r ← get
  set { r with rest := r.rest.drop 1 }
  return r.rest.head?

def joinedPeek? : Read (Option Char) := do
  join
  peek?

def joinedNext? : Read (Option Char) := do
  join
  next?

/-- Takes the character if it is the next one. -/
def accept (c : Char) : Read Bool := do
  if (← joinedPeek?) == some c then
    let _ ← next?
    return true
  else return false

/-- The longest run of characters of a class. -/
def readRun (p : Char → Bool) : (fuel : Nat) → Read (List Char)
  | 0 => return []
  | fuel + 1 => do
    match ← joinedPeek? with
    | some c =>
      if p c then
        let _ ← next?
        return c :: (← readRun p fuel)
      else return []
    | none => return []

/-- Passes over blanks; tells whether an alias ends here behind which there may be another one. -/
def endAliases : (fuel : Nat) → Read Bool
  | 0 => return false
  | fuel + 1 => do
    match ← joinedPeek? with
    | some c =>
      if Reader.isBlank c then
        drop 1
        endAliases fuel
      else ends
    | none => ends
where
  ends : Read Bool := do
    let r ← get
    let (ended, expanding) := r.expanding.partition fun e => r.rest.length ≤ e.left
    set { r with expanding }
    return ended.any Expanding.goesOn

/-- More steps than it takes to read the characters that are left. -/
def fuel : Read Nat := do
  return 4 * (← get).rest.length + 16

end Read

end FolderFlow.Shell
