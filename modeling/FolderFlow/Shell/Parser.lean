import FolderFlow.Shell.Token

/-!
# Reading commands

The grammar of commands, each rule a reader of its own. The rules that lead back to lists and
commands get them from a grammar that is one level shallower.
-/

namespace FolderFlow.Shell

/-- Which lists of commands there are. -/
inductive ListKind where
  /-- What is run before the next line is read. -/
  | line
  /-- A list in a command, which must not be empty. -/
  | block
  /-- A list that may be empty. -/
  | optional
  deriving DecidableEq, Repr

/-- The rules that other rules lead back to. -/
structure Grammar where
  list : ListKind → Read (Option Command)
  /-- A command that counts as one of the given line if it is made of others. -/
  command : (line : Nat) → Read Command

namespace Grammar

open Read

variable (g : Grammar)

/-! ## Tokens -/

/-- A word that has a meaning of its own becomes a token of its own. -/
def reserve : Token → Token
  | .word w =>
    match plainText? w with
    | some s => if reservedWords.contains s then .reserved s else .word w
    | none => .word w
  | t => t

/-- The next token as it stands. -/
def raw : Read Token := do
  readToken (g.list .optional) (← fuel) .plain

/-- The alias that a token is, with its text. -/
def alias? (t : Token) : Read (Option (String × String)) := do
  let r ← get
  return match t with
    | .word w => (plainText? w).bind fun name => (r.aliasText? name).map fun text => (name, text)
    | _ => none

/-- The next token, with the words told apart that have a meaning of their own if `reserves`, and
with aliases replaced if `replaces`. -/
def token (reserves replaces : Bool) : (fuel : Nat) → Read Token
  | 0 => g.raw
  | fuel + 1 => do
    let goesOn ← if (← get).pushed.isSome then pure false else endAliases (← Read.fuel)
    let t ← g.raw
    match if reserves then reserve t else t with
    | .word w =>
      match ← alias? (.word w), replaces || goesOn with
      | some (name, text), true =>
        if !text.isEmpty then modify fun r => r.expandAlias name text
        token reserves true fuel
      | _, _ => return .word w
    | t => return t

/-- The next token where no command begins. -/
def next : Read Token := do
  g.token false false (← fuel)

/-- The next token where a command may begin. -/
def nextReserved : Read Token := do
  g.token true true (← fuel)

def skipNewlines : (fuel : Nat) → Read Unit
  | 0 => return ()
  | fuel + 1 => do
    match ← g.raw with
    | .newline =>
      readDocuments (g.list .optional) (← Read.fuel)
      skipNewlines fuel
    | t => pushBack t

/-- The next token where a command may begin, on this line or a later one. -/
def nextBegin : Read Token := do
  g.skipNewlines (← fuel)
  g.nextReserved

def expectReserved (name : String) : Read Unit := do
  match ← g.nextReserved with
  | .reserved found => if found != name then expected (.reserved found) (.reserved name)
  | t => expected t (.reserved name)

def expectBegin (name : String) : Read Unit := do
  match ← g.nextBegin with
  | .reserved found => if found != name then expected (.reserved found) (.reserved name)
  | t => expected t (.reserved name)

/-! ## Redirections -/

/-- The text of a word that ends a document. -/
def markText (w : Word) : List Char :=
  w.flatMap fun
    | .text s _ => s.toList
    | _ => []

/-- The redirection that a sign begins. -/
def redirect (stream : Nat) (sign : Sign) : Read Redirect := do
  let mode := match sign with
    | .document _ => Mode.mark
    | _ => .plain
  match ← readToken (g.list .optional) (← fuel) mode with
  | .word w =>
    match sign with
    | .file opening => return .file stream opening w
    | .copy => return .copy stream w
    | .document stripTabs =>
      let r ← get
      let asked : Pending := ⟨r.nextDocument, markText w, w.any isQuotedPart, stripTabs⟩
      set { r with nextDocument := r.nextDocument + 1, pending := r.pending ++ [asked] }
      return .document stream r.nextDocument
  | t => unexpected t

/-- The redirections that follow a command made of commands. -/
def redirects : (fuel : Nat) → Read (List Redirect)
  | 0 => return []
  | fuel + 1 => do
    match ← g.nextReserved with
    | .redirect stream sign => return (← g.redirect stream sign) :: (← redirects fuel)
    | t =>
      pushBack t
      return []

/-! ## Simple commands -/

/-- The name and the value of an assignment. -/
def assignment? : Word → Option (String × Word)
  | .text s false :: parts =>
    match s.toList.dropWhile (· != '=') with
    | _ :: value =>
      let name := s.toList.takeWhile (· != '=')
      if isName name then
        some (String.ofList name,
          if value.isEmpty then parts else .text (String.ofList value) false :: parts)
      else none
    | [] => none
  | _ => none

/-- What has been read of a simple command, the last first. -/
structure Simple where
  line : Nat
  assignments : List (String × Word) := []
  words : List Word := []
  redirects : List Redirect := []

def Simple.finish (c : Simple) : Command :=
  .simple c.line c.assignments.reverse c.words.reverse c.redirects.reverse

/-- The function whose name stands before a parenthesis. -/
def function (name : Word) : Read Command := do
  match ← g.next with
  | .rightParen =>
    match plainText? name with
    | some s =>
      if !isName s.toList || specialCommands.contains s then fail "Bad function name"
      let line := (← get).line
      pushBack (← g.nextBegin)
      return .define line s (← g.command line)
    | none => fail "Bad function name"
  | t => expected t .rightParen

def simple : (fuel : Nat) → Simple → Read Command
  | 0, c => return c.finish
  | fuel + 1, c => do
    match ← g.token false c.words.isEmpty (← Read.fuel) with
    | .word w =>
      match assignment? w, c.words with
      | some a, [] => simple fuel { c with assignments := a :: c.assignments }
      | _, words => simple fuel { c with words := w :: words }
    | .redirect stream sign =>
      let r ← g.redirect stream sign
      simple fuel { c with redirects := r :: c.redirects }
    | .leftParen =>
      match c.words, c.assignments, c.redirects with
      | [name], [], [] => g.function name
      | _, _, _ =>
        pushBack .leftParen
        return c.finish
    | t =>
      pushBack t
      return c.finish

/-! ## Commands made of commands -/

/-- What follows the word that begins a condition. -/
def conditional : (fuel : Nat) → Read Command
  | 0 => return default
  | fuel + 1 => do
    let test ← g.list .block
    g.expectReserved "then"
    let body ← g.list .block
    match ← g.nextReserved with
    | .reserved "elif" => return .conditional test body (some (← conditional fuel))
    | .reserved "else" => return .conditional test body (← g.list .block)
    | t =>
      pushBack t
      return .conditional test body none

def loop (untilTrue : Bool) : Read Command := do
  let test ← g.list .block
  g.expectReserved "do"
  return .loop untilTrue test (← g.list .block)

/-- The words up to the end of a line. -/
def words : (fuel : Nat) → Read (List Word)
  | 0 => return []
  | fuel + 1 => do
    match ← g.next with
    | .word w => return w :: (← words fuel)
    | .newline =>
      pushBack .newline
      return []
    | .semicolon => return []
    | t => unexpected t

def each (line : Nat) : Read Command := do
  match ← g.next with
  | .word w =>
    match plainText? w with
    | some name =>
      if !isName name.toList then fail "Bad for loop variable"
      let words ← match ← g.nextBegin with
        | .reserved "in" => g.words (← fuel)
        | t =>
          match t with
          | .semicolon => pure ()
          | t => pushBack t
          pure [[.parameter (.all true) .value true]]
      g.expectBegin "do"
      return .each line name words (← g.list .block)
    | none => fail "Bad for loop variable"
  | _ => fail "Bad for loop variable"

/-- The patterns of a case, of which the first token has been read. -/
def patterns : (fuel : Nat) → Token → Read (List Word)
  | 0, _ => return []
  | fuel + 1, t => do
    let first := match t with
      | .word w => w
      | .reserved name => [.text name false]
      | _ => []
    match ← g.next with
    | .pipe => return first :: (← patterns fuel (← g.next))
    | .rightParen => return [first]
    | t => expected t .rightParen

def cases : (fuel : Nat) → Read (List (List Word × Option Command))
  | 0 => return []
  | fuel + 1 => do
    g.skipNewlines (← Read.fuel)
    match reserve (← g.next) with
    | .reserved "esac" => return []
    | t =>
      let first ← match t with
        | .leftParen => g.next
        | t => pure t
      let patterns ← g.patterns (← Read.fuel) first
      let body ← g.list .optional
      match ← g.nextBegin with
      | .reserved "esac" => return [(patterns, body)]
      | .endCase => return (patterns, body) :: (← cases fuel)
      | t => expected t .endCase

def choice (line : Nat) : Read Command := do
  match ← g.next with
  | .word subject =>
    g.expectBegin "in"
    return .choice line subject (← g.cases (← fuel))
  | t => expected t (.word [])

/-! ## Commands -/

/-- A command that has been read up to the token that closes it. -/
def closed (c : Command) (last : Token) : Read Command := do
  let t ← g.nextReserved
  if t.describe == last.describe then return c else expected t last

/-- A command made of commands with the redirections behind it. -/
def redirected (line : Nat) (c : Command) : Read Command := do
  match ← g.redirects (← fuel), c with
  | [], c => return c
  | rs, .subshell line body _ => return .subshell line body rs
  | rs, c => return .redirected line c rs

def readCommand (line : Nat) : Read Command := do
  let t ← g.next
  let finish (name : String) (c : Command) : Read Command := do
    g.redirected line (← g.closed c (.reserved name))
  match t with
  | .reserved "if" => finish "fi" (← g.conditional (← fuel))
  | .reserved "while" => finish "done" (← g.loop false)
  | .reserved "until" => finish "done" (← g.loop true)
  | .reserved "for" => finish "done" (← g.each line)
  | .reserved "case" => g.redirected line (← g.choice line)
  | .reserved "\x7b" =>
    finish "\x7d" ((← g.list .block).getD default)
  | .leftParen =>
    g.redirected line (← g.closed (.subshell line (← g.list .block) []) .rightParen)
  | .word _ | .redirect .. =>
    pushBack t
    g.simple (← fuel) ⟨(← get).line, [], [], []⟩
  | t => unexpected t

/-- The stages behind a pipe. -/
def stages : (fuel : Nat) → Read (List Command)
  | 0 => return []
  | fuel + 1 => do
    match ← g.next with
    | .pipe =>
      let line := (← get).line
      pushBack (← g.nextBegin)
      return (← g.readCommand line) :: (← stages fuel)
    | t =>
      pushBack t
      return []

def pipeline : Read Command := do
  match ← g.next with
  | .reserved "!" =>
    pushBack (← g.nextReserved)
    return .not (← unnegated)
  | t =>
    pushBack t
    unnegated
where
  unnegated : Read Command := do
    let first ← g.readCommand (← get).line
    match ← g.stages (← fuel) with
    | [] => return first
    | rest => return .pipeline (first :: rest)

/-- Joins what follows to the command before it. -/
def joined : (fuel : Nat) → Command → Read Command
  | 0, first => return first
  | fuel + 1, first => do
    match ← g.next with
    | .and =>
      pushBack (← g.nextBegin)
      joined fuel (.and first (← g.pipeline))
    | .or =>
      pushBack (← g.nextBegin)
      joined fuel (.or first (← g.pipeline))
    | t =>
      pushBack t
      return first

/-! ## Lists -/

def andThen (before : Option Command) (c : Command) : Command :=
  match before with
  | some before => .sequence before c
  | none => c

/-- A list, given the commands of it that have been read. The token that ends it is put back. -/
def readList (kind : ListKind) : (fuel : Nat) → Option Command → Read (Option Command)
  | 0, before => return before
  | fuel + 1, before => do
    let t ← if kind == .line then g.nextReserved else g.nextBegin
    let finish (t : Token) : Read (Option Command) := do
      pushBack t
      return before
    match t with
    | .newline =>
      readDocuments (g.list .optional) (← Read.fuel)
      return before
    | .endOfFile =>
      readDocuments (g.list .optional) (← Read.fuel)
      finish t
    | t =>
      if t.endsList && (kind == .optional || (kind == .block && before.isSome)) then finish t
      else
        pushBack t
        let c ← g.joined (← Read.fuel) (← g.pipeline)
        let line := (← get).line
        let sign ← g.next
        let c := match sign with
          | .ampersand => .background line c
          | _ => c
        let all := some (andThen before c)
        match sign with
        | .ampersand | .semicolon => readList kind fuel all
        | .newline | .endOfFile =>
          pushBack sign
          readList kind fuel all
        | sign =>
          if kind == .line then unexpected sign
          pushBack sign
          return all

end Grammar

/-- The grammar of commands that hold others to some depth. -/
def grammar : (depth : Nat) → Grammar
  | 0 => ⟨fun _ => return none, fun _ => return default⟩
  | depth + 1 => {
      list := fun kind => do (grammar depth).readList kind (← Read.fuel) none
      command := (grammar depth).readCommand }

/-- A text read as a document that no line ends. -/
def readPrompt : Read Word := do
  let depth ← Read.fuel
  modify fun r => { r with endMark := some (['\n'], false) }
  readParts ((grammar depth).list .optional) depth .document []

/-- What the next line of a script says. There is no next line at the end of the script. -/
def readLine : Read (Option (Option Command)) := do
  let depth ← Read.fuel
  let c ← (grammar depth).readList .line depth none
  match c, (← get).pushed with
  | none, some .endOfFile => return none
  | c, _ => return some c

end FolderFlow.Shell
