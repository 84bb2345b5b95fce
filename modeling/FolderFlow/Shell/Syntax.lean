/-!
# Shell scripts

What a script says: words with their substitutions, redirections, and commands made of commands.
-/

namespace FolderFlow.Shell

/-- What a dollar sign may name. -/
inductive Parameter where
  | variable (name : String)
  | position (n : Nat)
  | count
  /-- All arguments: each one by itself, or all of them joined. -/
  | all (separate : Bool)
  | status
  | process
  | options
  | lastJob
  deriving DecidableEq, Repr

def Parameter.name : Parameter → String
  | .variable name => name
  | .position n => toString n
  | .count => "#"
  | .all separate => if separate then "@" else "*"
  | .status => "?"
  | .process => "$"
  | .options => "-"
  | .lastJob => "!"

/-- What is done about a parameter that has no value. -/
inductive Fallback where
  | use
  | assign
  | complain
  /-- The other way about: the word stands in when there is a value. -/
  | replace
  deriving DecidableEq, Repr

/-- How a file is opened. -/
inductive Opening where
  | read
  | write
  /-- Writes even where existing files are kept. -/
  | clobber
  | append
  | readWrite
  deriving DecidableEq, Repr

mutual

/-- A part of a word. What is quoted is neither split into fields nor read as a pattern. -/
inductive Part where
  | text (s : String) (quoted : Bool)
  | parameter (p : Parameter) (use : Use) (quoted : Bool)
  /-- The output of a command. -/
  | output (body : Option Command) (quoted : Bool)
  | arithmetic (expression : List Part) (quoted : Bool)

/-- What is made of a parameter. -/
inductive Use where
  | value
  | length
  | fallback (kind : Fallback) (ofEmpty : Bool) (word : List Part)
  | trim (atEnd longest : Bool) (pattern : List Part)
  /-- The word stands behind the value, and the text around the parameter ends with it. -/
  | last (word : List Part)
  /-- No shell knows it. -/
  | unknown

inductive Redirect where
  | file (stream : Nat) (opening : Opening) (target : List Part)
  | copy (stream : Nat) (source : List Part)
  /-- Reads a document of the script, which is known by its number. -/
  | document (stream number : Nat)

inductive Command where
  | simple (line : Nat) (assignments : List (String × List Part)) (words : List (List Part))
    (redirects : List Redirect)
  | pipeline (stages : List Command)
  | background (line : Nat) (body : Command)
  | not (body : Command)
  | and (first second : Command)
  | or (first second : Command)
  | sequence (first second : Command)
  | subshell (line : Nat) (body : Option Command) (redirects : List Redirect)
  | redirected (line : Nat) (body : Command) (redirects : List Redirect)
  | conditional (test : Option Command) (body otherwise : Option Command)
  | loop (untilTrue : Bool) (test body : Option Command)
  | each (line : Nat) (name : String) (words : List (List Part)) (body : Option Command)
  | choice (line : Nat) (subject : List Part)
    (cases : List (List (List Part) × Option Command))
  | define (line : Nat) (name : String) (body : Command)

end

abbrev Word := List Part

instance : Inhabited Command :=
  ⟨.simple 0 [] [] []⟩

/-! ## Names -/

def isNameStart (c : Char) : Bool :=
  c.isAlpha || c == '_'

def isNameChar (c : Char) : Bool :=
  c.isAlphanum || c == '_'

def isName : List Char → Bool
  | [] => false
  | c :: cs => isNameStart c && cs.all isNameChar

/-- The commands whose faults end the shell, and which no function may replace. -/
def specialCommands : List String :=
  [".", ":", "break", "continue", "eval", "exec", "exit", "export", "local", "readonly", "return",
    "set", "shift", "times", "trap", "unset"]

/-- The words that have a meaning of their own where a command may begin. -/
def reservedWords : List String :=
  ["!", "case", "do", "done", "elif", "else", "esac", "fi", "for", "if", "in", "then", "until",
    "while", "\x7b", "\x7d"]

end FolderFlow.Shell
