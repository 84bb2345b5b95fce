/-!
# Options on a command line

The words of a command line are read from left to right. An option is given by a long or a short
name; its value is attached to the name or is the next word, short options without a value may stand
in one word, and no option may be given twice. Reading stops at the name of a command.
-/

namespace FolderFlow

/-- What an option takes and does. -/
inductive OptionKind where
  | flag
  | path
  | choice (values : List String)
  /-- Ends the reading at once. -/
  | help
  | version
  deriving DecidableEq, Repr

structure OptionSpec where
  long : String
  short : Option Char
  kind : OptionKind
  deriving DecidableEq, Repr

namespace OptionSpec

def takesValue (spec : OptionSpec) : Bool :=
  match spec.kind with
  | .path | .choice _ => true
  | _ => false

/-- A path must not be empty, and a choice must be one of those offered. -/
def accepts (spec : OptionSpec) (value : String) : Bool :=
  match spec.kind with
  | .path => !value.isEmpty
  | .choice values => values.contains value
  | _ => true

end OptionSpec

/-- Options by their long names, with their values; the value of a flag is empty. -/
abbrev Settings := List (String × String)

/-- Why reading ends before the end of the words. -/
inductive OptionStop where
  | usage
  | help
  | version
  deriving DecidableEq, Repr

namespace OptionSpec

/-- Adds an option with its value, unless it is there or does not take the value. -/
def set (spec : OptionSpec) (value : String) (found : Settings) : Except OptionStop Settings :=
  if (found.lookup spec.long).isSome || !spec.accepts value then .error .usage
  else .ok ((spec.long, value) :: found)

/-- Adds an option that takes no value. -/
def raise (spec : OptionSpec) (found : Settings) : Except OptionStop Settings :=
  match spec.kind with
  | .help => .error .help
  | .version => .error .version
  | _ => spec.set "" found

/-! ## Words -/

/-- The settings so far, and the option whose value is the next word. -/
abbrev Progress := Settings × Option OptionSpec

/-- A long name with the value behind an equals sign, if there is one. -/
def readLong (specs : List OptionSpec) (found : Settings) (word : List Char) :
    Except OptionStop Progress :=
  let name := String.ofList (word.takeWhile (· != '='))
  match specs.find? (·.long == name), word.dropWhile (· != '=') with
  | none, _ => .error .usage
  | some spec, [] =>
    if spec.takesValue then .ok (found, some spec) else (spec.raise found).map (·, none)
  | some spec, _ :: value =>
    if spec.takesValue then (spec.set (String.ofList value) found).map (·, none)
    else .error .usage

/-- Short names one after the other, up to one that takes a value, which follows it with or without
an equals sign. -/
def readShort (specs : List OptionSpec) (found : Settings) :
    List Char → Except OptionStop Progress
  | [] => .ok (found, none)
  | c :: cs =>
    match specs.find? (·.short == some c) with
    | none => .error .usage
    | some spec =>
      if spec.takesValue then
        match cs with
        | [] => .ok (found, some spec)
        | '=' :: value => (spec.set (String.ofList value) found).map (·, none)
        | value => (spec.set (String.ofList value) found).map (·, none)
      else do readShort specs (← spec.raise found) cs

/-- A word that cannot be the value of an option; a single hyphen can. -/
def isOption (word : String) : Bool :=
  match word.toList with
  | '-' :: _ :: _ => true
  | _ => false

/-- Reads words up to the name of a command, which is given back with the words behind it. Behind a
double hyphen nothing is expected. -/
def readWords (specs : List OptionSpec) (commands : List String) :
    Progress → List String → Except OptionStop (Settings × Option (String × List String))
  | (found, none), [] => .ok (found, none)
  | (_, some _), [] => .error .usage
  | (found, some spec), word :: words =>
    if isOption word then .error .usage
    else do readWords specs commands (← spec.set word found, none) words
  | (found, none), word :: words =>
    if commands.contains word then .ok (found, some (word, words))
    else
      match word.toList with
      | ['-', '-'] => if words.isEmpty then .ok (found, none) else .error .usage
      | '-' :: '-' :: name => do
        readWords specs commands (← readLong specs found name) words
      | '-' :: c :: cs => do
        readWords specs commands (← readShort specs found (c :: cs)) words
      | _ => .error .usage

end OptionSpec

end FolderFlow
