import FolderFlow.Shell.Arithmetic

/-!
# Commands of the shell

What the commands that a shell runs by itself have in common: they write to the output, they read
options in front of their arguments, and they end with a status.
-/

namespace FolderFlow.Shell

/-- A command that the shell runs by itself, given its arguments. -/
abbrev Builtin := List String → Exec Nat

def illegalNumber {α : Type} (text : String) : Exec α :=
  fault ("Illegal number: " ++ text)

/-- A number that can count something. -/
def number (text : String) : Exec Nat :=
  match natural? text with
  | some n => return n
  | none => illegalNumber text

def integer (text : String) : Exec Int :=
  match integer? text with
  | some n => return n
  | none => illegalNumber text

/-! ## Options -/

/-- The options in a word, of which some take a value: the rest of the word or the next word. -/
def optionsOfWord (plain valued : List Char) (rest : List String) :
    List Char → Exec (List (Char × String) × List String)
  | [] => return ([], rest)
  | c :: cs => do
    if plain.contains c then
      let (options, rest) ← optionsOfWord plain valued rest cs
      return ((c, "") :: options, rest)
    else if valued.contains c then
      match cs, rest with
      | [], [] => fault ("No arg for -" ++ String.singleton c ++ " option")
      | [], value :: rest => return ([(c, value)], rest)
      | cs, rest => return ([(c, String.ofList cs)], rest)
    else fault ("Illegal option -" ++ String.singleton c)

/-- The options in front of arguments, and the arguments. -/
def readOptions (plain valued : List Char) :
    (fuel : Nat) → List String → Exec (List (Char × String) × List String)
  | 0, args => return ([], args)
  | _, [] => return ([], [])
  | fuel + 1, arg :: rest => do
    match arg.toList with
    | ['-', '-'] => return ([], rest)
    | '-' :: c :: cs =>
      let (options, rest) ← optionsOfWord plain valued rest (c :: cs)
      let (more, rest) ← readOptions plain valued fuel rest
      return (options ++ more, rest)
    | _ => return ([], arg :: rest)

def withOptions (plain valued : List Char) (args : List String) :
    Exec (List (Char × String) × List String) :=
  readOptions plain valued (args.length + 1) args

/-- Arguments in front of which there are no options. -/
def withoutOptions (args : List String) : Exec (List String) := do
  return (← withOptions [] [] args).2

/-! ## Quoting -/

/-- A text between single quotes, which stand between double quotes themselves. -/
def singleQuoted (text : String) : String :=
  String.join (pieces text.toList)
where
  pieces (cs : List Char) : List String :=
    go (cs.length + 1) cs
  go : Nat → List Char → List String
    | 0, _ => []
    | fuel + 1, cs =>
      let plain := cs.takeWhile (· != '\'')
      let rest := cs.dropWhile (· != '\'')
      let quotes := rest.takeWhile (· == '\'')
      let first := "'" ++ String.ofList plain ++ "'"
      if quotes.isEmpty then [first]
      else
        let quoted := "\"" ++ String.ofList quotes ++ "\""
        let rest := rest.dropWhile (· == '\'')
        first :: quoted :: (if rest.isEmpty then [] else go fuel rest)

end FolderFlow.Shell
