import FolderFlow.Shell.Reader
import FolderFlow.Text.Hex

/-!
# Tokens of a script

Words are read part by part. What a character means in a word hangs on where it stands: outside of
quotes, between double quotes, between the braces of a parameter, in an arithmetic expression or in
a document. Substitutions hold commands, so readers are given the one that reads a list of them.
-/

namespace FolderFlow.Shell

/-- Where in a word a reader is. -/
inductive Mode where
  | plain
  /-- A word that ends a document, in which nothing is substituted. -/
  | mark
  | quotes (inMark : Bool)
  /-- Between the braces of a parameter that is not quoted. -/
  | braces
  /-- Between the braces of a quoted parameter, and there perhaps between further quotes. -/
  | quotedBraces (inner : Bool)
  | arithmetic (depth : Nat)
  | document
  deriving DecidableEq, Repr

namespace Mode

def isQuoted : Mode → Bool
  | plain | mark | braces => false
  | _ => true

def isBare : Mode → Bool
  | plain | mark => true
  | _ => false

/-- What a backslash takes its meaning from. -/
def escapes (mode : Mode) (c : Char) : Bool :=
  !mode.isQuoted || ['\\', '\x60', '$'].contains c || (c == '"' && mode != document) ||
    (c == '\x7d' && (mode == quotedBraces true || mode == quotedBraces false))

/-- What is wrong when the text ends. A document may end between quotes. -/
def openFault? (inDocument : Bool) : Mode → Option String
  | plain | mark | document => none
  | braces => some "Missing '\x7d'"
  | quotes _ | quotedBraces _ =>
    some (if inDocument then "Missing '\x7d'" else "Unterminated quoted string")
  | arithmetic _ => some "Missing '))'"

end Mode

/-- The characters that end a word that is not quoted. -/
def endsWord (c : Char) : Bool :=
  [' ', '\t', '\n', ';', '&', '|', '<', '>', '(', ')'].contains c

/-- Adds a character to parts of which the last comes first. -/
def addChar (c : Char) (quoted : Bool) : Word → Word
  | .text s q :: parts =>
    if q == quoted then .text (s.push c) q :: parts
    else .text (String.singleton c) quoted :: .text s q :: parts
  | parts => .text (String.singleton c) quoted :: parts

/-- The parts of a quoted string, which may be empty, and yet is something. Only all arguments by
themselves are nothing when there are none. -/
def quotedParts : Word → Word
  | [.parameter (.all true) .value true] => [.parameter (.all true) .value true]
  | parts => .text "" true :: parts

def isQuotedPart : Part → Bool
  | .text _ quoted => quoted
  | _ => false

/-- The text of a word that is a plain text. -/
def plainText? : Word → Option String
  | [.text s false] => some s
  | _ => none

/-! ## Parameters -/

def special? : Char → Option Parameter
  | '#' => some .count
  | '@' => some (.all true)
  | '*' => some (.all false)
  | '?' => some .status
  | '$' => some .process
  | '-' => some .options
  | '!' => some .lastJob
  | _ => none

def fallback? : Char → Option Fallback
  | '-' => some .use
  | '=' => some .assign
  | '?' => some .complain
  | '+' => some .replace
  | _ => none

/-- What is behind the name of a parameter between braces, as far as it is no word. -/
inductive Tail where
  | closed (use : Use)
  | fallback (kind : Fallback) (ofEmpty : Bool)
  | trim (atEnd longest : Bool)
  | last
  | unknown

/-- A word stands behind every tail that does not close the braces, and may be quoted. -/
def Tail.mode (quoted : Bool) : Tail → Mode
  | trim .. => .braces
  | _ => if quoted then .quotedBraces false else .braces

def Tail.use (word : Word) : Tail → Use
  | closed use => use
  | fallback kind ofEmpty => .fallback kind ofEmpty word
  | trim atEnd longest => .trim atEnd longest word
  | last => .last word
  | unknown => .unknown

namespace Read

/-- A parameter between braces that has a name or a number. -/
def named? : Read (Option Parameter) := do
  match ← joinedPeek? with
  | some c =>
    if isNameStart c then
      return some (.variable (String.ofList (← readRun isNameChar (← fuel))))
    else if c.isDigit then
      return some (.position (Text.valueOf 10 (← readRun Char.isDigit (← fuel))))
    else return none
  | none => return none

def tail : Read Tail := do
  match ← uncounted? with
  | some '\x7d' => return .closed .value
  | some '%' => return .trim true (← accept '%')
  | some '#' => return .trim false (← accept '#')
  | some ':' =>
    match ← uncounted? with
    | some '\x7d' => return .last
    | c => return ((c.bind fallback?).map fun kind => Tail.fallback kind true).getD .unknown
  | some c => return ((fallback? c).map fun kind => Tail.fallback kind false).getD .unknown
  | none => return .unknown

/-- The tail behind the name of a parameter whose length is asked for. -/
def lengthTail : Read Tail := do
  return if ← accept '\x7d' then .closed .length else .unknown

/-- What follows the number sign that braces begin with: it asks for a length, unless it is the
parameter itself. -/
def afterCount : Read (Parameter × Tail) := do
  match ← named? with
  | some p => return (p, ← lengthTail)
  | none =>
    let r ← get
    match ← uncounted?, ← joinedPeek? with
    | some c, some '\x7d' =>
      match special? c with
      | some p => return (p, ← lengthTail)
      | none =>
        if c != '\x7d' then return (.count, .unknown)
        set r
        return (.count, ← tail)
    | _, _ =>
      set r
      return (.count, ← tail)

/-- A parameter between braces, of which the first has been read, and its tail. -/
def braced : Read (Parameter × Tail) := do
  match ← named? with
  | some p => return (p, ← tail)
  | none =>
    match ← joinedPeek? with
    | some c =>
      match special? c with
      | some p =>
        let _ ← next?
        if p == .count then afterCount else return (p, ← tail)
      | none =>
        if c != '\x7d' then
          let _ ← uncounted?
        return (.count, .unknown)
    | none => return (.count, .unknown)

/-! ## Commands in words -/

/-- The text up to a back quote. -/
def backquoted (quoted : Bool) : (fuel : Nat) → List Char → Read String
  | 0, acc => return String.ofList acc.reverse
  | fuel + 1, acc => do
    match ← joinedNext? with
    | none => fail "EOF in backquote substitution"
    | some '\x60' => return String.ofList acc.reverse
    | some '\\' =>
      match ← next? with
      | none => fail "EOF in backquote substitution"
      | some c =>
        if ['\\', '\x60', '$'].contains c || (quoted && c == '"') then
          backquoted quoted fuel (c :: acc)
        else backquoted quoted fuel (c :: '\\' :: acc)
    | some c => backquoted quoted fuel (c :: acc)

/-- Reads from a text of its own and goes on where the reader was. -/
def within {α : Type} (text : List Char) (read : Read α) : Read α := do
  let outer ← get
  set { outer with
    rest := text, line := 1, pending := [], expanding := [], endMark := none, asksNext := false }
  let result ← try
      read
    catch e => throw { e with left := outer.rest.length, asked := outer.asked }
  let inner ← get
  set { outer with
    pushed := none, documents := inner.documents, nextDocument := inner.nextDocument }
  return result

/-! ## Documents -/

/-- Passes over the line that ends a document, if it is the next one, and over the tabs before
it in any case if they are to be dropped. -/
def endDocument (mark : List Char) (stripTabs : Bool) : Read Bool := do
  let r ← get
  let rest := if stripTabs then r.rest.dropWhile (· == '\t') else r.rest
  if rest.takeWhile (· != '\n') == mark then
    set { r with rest := rest.drop (mark.length + 1), line := r.line + 1, asksNext := true }
    return true
  else
    set { r with rest }
    return false

/-- Passes over the line that ends the document that is being read, if there is one. -/
def atEndMark : Read Bool := do
  match (← get).endMark with
  | some (mark, stripTabs) => endDocument mark stripTabs
  | none => return false

/-- Ends a text of which the parts are given in reverse. -/
def ended (mode : Mode) (parts : Word) : Read Word := do
  match mode.openFault? (← get).endMark.isSome with
  | some text => fail text
  | none => return parts.reverse

/-- The text up to a single quote. -/
def untilQuote : (fuel : Nat) → (acc : String) → Read String
  | 0, acc => return acc
  | fuel + 1, acc => do
    match ← next? with
    | none => unclosed acc
    | some '\'' => return acc
    | some c =>
      if c == '\n' then
        if ← atEndMark then unclosed acc else untilQuote fuel (acc.push c)
      else untilQuote fuel (acc.push c)
where
  unclosed (acc : String) : Read String := do
    let _ ← ended (.quotes false) []
    return acc

/-- The lines of a document in which nothing is substituted. -/
def literalText (mark : List Char) (stripTabs : Bool) : (fuel : Nat) → List Char → Read (List Char)
  | 0, acc => return acc
  | fuel + 1, acc => do
    if ← endDocument mark stripTabs then return acc
    let line := (← get).rest.takeWhile (· != '\n')
    Read.drop line.length
    match ← next? with
    | none => return acc ++ line
    | some c => literalText mark stripTabs fuel (acc ++ line ++ [c])

/-! ## Signs -/

def inputSign : Read Sign := do
  if ← accept '<' then return .document (← accept '-')
  if ← accept '&' then return .copy
  return .file (if ← accept '>' then .readWrite else .read)

def outputSign : Read Sign := do
  if ← accept '>' then return .file .append
  if ← accept '&' then return .copy
  return .file (if ← accept '|' then .clobber else .write)

end Read

open Read

variable (list : Read (Option Command))

mutual

/-- The parts of a word from here on, given those before in reverse. -/
def readParts : (fuel : Nat) → Mode → Word → Read Word
  | 0, _, acc => return acc.reverse
  | fuel + 1, mode, acc => do
    match ← joinedPeek? with
    | none => ended mode acc
    | some c =>
      if mode.isBare && endsWord c then return acc.reverse
      let _ ← next?
      match c, mode with
      | '\\', _ =>
        match ← next? with
        | none => readParts fuel mode (addChar '\\' true acc)
        | some d =>
          let acc := if mode.escapes d then acc else addChar '\\' true acc
          readParts fuel mode (addChar d true acc)
      | '\'', .plain | '\'', .mark | '\'', .braces =>
        let text ← untilQuote (← Read.fuel) ""
        readParts fuel mode (.text text true :: acc)
      | '"', .plain | '"', .mark | '"', .braces =>
        let inner ← readParts fuel (.quotes (mode == .mark)) []
        readParts fuel mode ((quotedParts inner).reverse ++ acc)
      | '"', .quotes _ => return acc.reverse
      | '"', .quotedBraces inner => readParts fuel (.quotedBraces !inner) (.text "" true :: acc)
      | '\x7d', .braces | '\x7d', .quotedBraces false => return acc.reverse
      | '(', .arithmetic depth => readParts fuel (.arithmetic (depth + 1)) (addChar '(' true acc)
      | ')', .arithmetic 0 =>
        if ← accept ')' then return acc.reverse
        else readParts fuel mode (addChar ')' true acc)
      | ')', .arithmetic (depth + 1) => readParts fuel (.arithmetic depth) (addChar ')' true acc)
      | '\n', _ =>
        let acc := addChar '\n' mode.isQuoted acc
        if ← atEndMark then ended mode acc else readParts fuel mode acc
      | '$', .mark | '$', .quotes true | '\x60', .mark | '\x60', .quotes true =>
        readParts fuel mode (addChar c mode.isQuoted acc)
      | '$', _ => readParts fuel mode ((← readDollar fuel mode.isQuoted) :: acc)
      | '\x60', _ =>
        let text ← backquoted mode.isQuoted (← Read.fuel) []
        let body ← within text.toList list
        readParts fuel mode (.output body mode.isQuoted :: acc)
      | _, _ => readParts fuel mode (addChar c mode.isQuoted acc)

/-- What a dollar sign stands for. -/
def readDollar : (fuel : Nat) → (quoted : Bool) → Read Part
  | 0, quoted => return .text "$" quoted
  | fuel + 1, quoted => do
    match ← joinedPeek? with
    | some '(' =>
      let _ ← next?
      if ← accept '(' then return .arithmetic (← readParts fuel (.arithmetic 0) []) quoted
      else return .output (← readEnclosed fuel) quoted
    | some '\x7b' =>
      let _ ← next?
      let (p, tail) ← braced
      match tail with
      | .closed use => return .parameter p use quoted
      | tail => return .parameter p (tail.use (← readParts fuel (tail.mode quoted) [])) quoted
    | some c =>
      if isNameStart c then
        let name ← readRun isNameChar (← Read.fuel)
        return .parameter (.variable (String.ofList name)) .value quoted
      else if c.isDigit then
        let _ ← next?
        return .parameter (.position (Text.digitValue c)) .value quoted
      else
        match special? c with
        | some p =>
          let _ ← next?
          return .parameter p .value quoted
        | none => return .text "$" quoted
    | none => return .text "$" quoted

/-- The commands up to a closing parenthesis. Documents that they ask for end with them. -/
def readEnclosed : (fuel : Nat) → Read (Option Command)
  | 0 => return none
  | fuel + 1 => do
    let outer ← get
    set { outer with pending := [], endMark := none }
    let body ← list
    let t ← readToken fuel .plain
    match t with
    | .rightParen =>
      let r ← get
      let rest := r.rest
      set { r with rest := [] }
      readDocuments fuel
      modify fun r =>
        { r with rest, pushed := none, pending := outer.pending, endMark := outer.endMark }
      return body
    | t => expected t .rightParen

/-- Reads the documents that are asked for. -/
def readDocuments : (fuel : Nat) → Read Unit
  | 0 => return ()
  | fuel + 1 => do
    match (← get).pending with
    | [] => return ()
    | p :: pending =>
      modify fun r => { r with pending }
      goOn
      let body ←
        if p.literal then
          pure [.text (String.ofList (← literalText p.mark p.stripTabs (← Read.fuel) [])) true]
        else
          if ← endDocument p.mark p.stripTabs then pure []
          else
            modify fun r => { r with endMark := some (p.mark, p.stripTabs) }
            readParts fuel .document []
      modify fun r => { r with documents := (p.number, body) :: r.documents, endMark := none }
      readDocuments fuel

/-- The next token. A word is read as `mode` says. -/
def readToken : (fuel : Nat) → (mode : Mode) → Read Token
  | 0, _ => return .endOfFile
  | fuel + 1, mode => do
    match (← get).pushed with
    | some t =>
      modify fun r => { r with pushed := none }
      return t
    | none =>
      goOn
      match ← joinedPeek? with
      | none => return .endOfFile
      | some c =>
        match c with
        | ' ' | '\t' => Read.drop 1; readToken fuel mode
        | '#' =>
          modify fun r => { r with rest := r.rest.dropWhile (· != '\n') }
          readToken fuel mode
        | '\n' => endLine; return .newline
        | '&' => Read.drop 1; return if ← accept '&' then .and else .ampersand
        | '|' => Read.drop 1; return if ← accept '|' then .or else .pipe
        | ';' => Read.drop 1; return if ← accept ';' then .endCase else .semicolon
        | '(' => Read.drop 1; return .leftParen
        | ')' => Read.drop 1; return .rightParen
        | '<' => Read.drop 1; return .redirect 0 (← inputSign)
        | '>' => Read.drop 1; return .redirect 1 (← outputSign)
        | c =>
          let r ← get
          match c.isDigit, (dropJoins (r.rest.drop 1)).1.head? with
          | true, some '<' =>
            Read.drop 1; let _ ← joinedNext?
            return .redirect (Text.digitValue c) (← inputSign)
          | true, some '>' =>
            Read.drop 1; let _ ← joinedNext?
            return .redirect (Text.digitValue c) (← outputSign)
          | _, _ => return .word (← readParts fuel mode [])

end

end FolderFlow.Shell
