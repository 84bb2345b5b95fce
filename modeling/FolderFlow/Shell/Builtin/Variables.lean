import FolderFlow.Shell.Builtin.Basic
import FolderFlow.Shell.Field

/-!
# Variables, arguments and options

The commands that change what a shell remembers: its variables, its arguments and its options.
-/

namespace FolderFlow.Shell

/-! ## Variables -/

/-- The name and the value in an argument that may assign something. -/
def splitAssignment (arg : String) : String × Option String :=
  match arg.toList.dropWhile (· != '=') with
  | _ :: value => (String.ofList (arg.toList.takeWhile (· != '=')), some (String.ofList value))
  | [] => (arg, none)

/-- Marks variables, which may get values along with the mark. -/
def mark (set : Variable → Variable) (args : List String) : Exec Unit :=
  for arg in args do
    let (name, value) := splitAssignment arg
    checkName name
    match value with
    | some value => assign name value
    | none => pure ()
    modify fun s => s.put name (set ((s.binding? name).getD ⟨none, false, false⟩))

/-- Variables as commands that make them. -/
def listVariables (command : String) (isListed : Variable → Bool) : Exec Unit := do
  let listed := (← get).bindings.filter fun v => isListed v.2
  let start := if command.isEmpty then "" else command ++ " "
  for (name, v) in listed.mergeSort fun a b => Text.atMost a.1 b.1 do
    match v.value with
    | some value => writeLine (start ++ name ++ "=" ++ singleQuoted value)
    | none => if command.isEmpty then pure () else writeLine (start ++ name)

def markCommand (command : String) (isMarked : Variable → Bool) (set : Variable → Variable) :
    Builtin := fun args => do
  let isList := match (args.headD "").toList with
    | '-' :: 'p' :: _ => true
    | _ => false
  let args ← if isList then pure [] else withoutOptions args
  if args.isEmpty then listVariables command isMarked else mark set args
  return 0

def exportCommand : Builtin :=
  markCommand "export" (·.exported) fun v => { v with exported := true }

def readonly : Builtin :=
  markCommand "readonly" (·.readOnly) fun v => { v with readOnly := true }

def unset : Builtin := fun args => do
  let (options, args) ← withOptions ['v', 'f'] [] args
  for arg in args do
    if (options.getLast?.map Prod.fst) == some 'f' then
      modify fun s => { s with functions := s.functions.filter fun f => f.1 != arg }
    else
      let name ← nameIn arg
      if ((← get).binding? name).any (·.readOnly) then fault (name ++ ": is read only")
      modify fun s => s.remove name
  return 0

/-- Variables that a function has for itself. -/
def localCommand : Builtin := fun args => do
  if (← get).saved.isEmpty then fault "not in a function"
  for arg in args do
    let (name, value) := splitAssignment arg
    if name == "-" && value.isNone then modify State.saveOptions
    else
      if value.isNone && ((← get).binding? name).isNone then checkName name
      modify fun s => s.save name
      match value with
      | some value => assign name value
      | none => pure ()
  return 0

/-! ## Arguments -/

def shift : Builtin := fun args => do
  let count ← match args with
    | [] => pure 1
    | arg :: _ => number arg
  let s ← get
  if s.args.length < count then fault "can't shift that many"
  set { s with args := s.args.drop count, optionIndex := 1, optionOffset := 0 }
  return 0

def setArgs (args : List String) : Exec Unit :=
  modify fun s => { s with args, optionIndex := 1, optionOffset := 0 }

/-! ## Options of the shell -/

/-- Sets an option by its letter. Of two ways to edit lines the one that is set last counts. -/
def setLetter (c : Char) (on : Bool) : Exec Unit := do
  if !State.optionLetters.contains c then fault ("Illegal option -" ++ String.singleton c)
  modify fun s => s.setOption c on
  let editing := [('V', 'E'), ('E', 'V')]
  match editing.lookup c with
  | some other => if on then modify fun s => s.setOption other false
  | none => return ()

def isOn (option : String × Option Char) : Exec Bool := do
  return option.2.any (← get).has

def listOptions (on : Bool) : Exec Unit := do
  if on then
    writeLine "Current option settings"
    for option in State.optionNames do
      let blanks := String.ofList (List.replicate (16 - option.1.length) ' ')
      writeLine (option.1 ++ blanks ++ if ← isOn option then "on" else "off")
  else
    for option in State.optionNames do
      writeLine ("set " ++ (if ← isOn option then "-o " else "+o ") ++ option.1)

/-- Sets an option by its name, or lists all of them where there is no name. -/
def setNamed (on : Bool) (name : Option String) : Exec Unit := do
  match name with
  | none => listOptions on
  | some name =>
    match State.optionNames.lookup name with
    | some letter => modify fun s => (letter.map (s.setOption · on)).getD s
    | none => fault ("Illegal option -o " ++ name)

/-- Sets the options in a word and gives the words behind it. -/
def setLetters (on : Bool) (rest : List String) : List Char → Exec (List String)
  | [] => return rest
  | 'o' :: cs => do
    setNamed on rest.head?
    setLetters on (rest.drop 1) cs
  | c :: cs => do
    setLetter c on
    setLetters on rest cs

def setWords : (fuel : Nat) → List String → Exec (List String)
  | 0, args => return args
  | _, [] => return []
  | fuel + 1, arg :: rest => do
    match arg.toList with
    | ['-'] =>
      modify fun s => (s.setOption 'x' false).setOption 'v' false
      return rest
    | ['-', '-'] =>
      if rest.isEmpty then setArgs []
      return rest
    | '-' :: cs => setWords fuel (← setLetters true rest cs)
    | '+' :: cs => setWords fuel (← setLetters false rest cs)
    | _ => return arg :: rest

/-- Jobs can only be told apart from a terminal, and there is none. -/
def refuseMonitor : Exec Unit := do
  let s ← get
  if s.isFirst && s.has 'm' then
    complain "can't access tty; job control turned off"
    modify fun s => s.setOption 'm' false

def setCommand : Builtin := fun args => do
  if args.isEmpty then listVariables "" fun v => v.value.isSome
  else
    let rest ← setWords (args.length + 1) args
    refuseMonitor
    if !rest.isEmpty then setArgs rest
  return 0

/-! ## Options of the script -/

/-- What is known of the next option. -/
inductive Option? where
  | atEnd (index : Nat)
  | found (letter : Char) (rest : List Char) (index : Nat)

/-- The next option of some words: in the word that is being read, or at the beginning of the next
one. -/
def nextOption (words : List String) (index offset : Nat) : Option? :=
  let inWord := if offset = 0 || index < 2 then []
    else ((words[index - 2]?.getD "").toList.drop offset)
  match inWord with
  | c :: rest => .found c rest index
  | [] =>
    match (words[index - 1]?.getD "").toList with
    | ['-', '-'] => .atEnd (index + 1)
    | '-' :: c :: rest => .found c rest (index + 1)
    | _ => .atEnd index

/-- Whether an option takes a value, if there is such an option. -/
def takesValue? (letter : Char) : List Char → Option Bool
  | c :: ':' :: rest => if c == letter then some true else takesValue? letter rest
  | c :: rest => if c == letter then some false else takesValue? letter rest
  | [] => none

/-- The place of the next option when it is not known. The first word is read then. -/
def noOption : Nat :=
  0x100000000

def getopts : Builtin := fun args => do
  match ← withoutOptions args with
  | known :: name :: words =>
    let s ← get
    let words := if words.isEmpty then s.args else words
    let (index, offset) := if words.length + 1 < s.optionIndex then (1, 0)
      else (s.optionIndex, s.optionOffset)
    let silent := known.toList.head? == some ':'
    let finish (letter : String) (index offset : Nat) (status : Nat) : Exec Nat := do
      change "OPTIND" (some (toString index))
      modify fun s => { s with optionIndex := noOption, optionOffset := 0 }
      assignChecked name letter
      modify fun s => { s with optionIndex := index, optionOffset := offset }
      return status
    -- A fault in the options is told in one of two ways.
    let fail (letter : Char) (text : String) (told : String) (index offset : Nat) : Exec Nat := do
      if silent then assign "OPTARG" (String.singleton letter)
      else
        writeError (text ++ "\n")
        modify fun s => s.remove "OPTARG"
      finish (if silent then told else "?") index offset 0
    match nextOption words index offset with
    | .atEnd index => finish "?" index 0 1
    | .found letter rest index =>
      let offset := (words[index - 2]?.getD "").length - rest.length
      match takesValue? letter known.toList with
      | none => fail letter ("Illegal option -" ++ String.singleton letter) "?" index offset
      | some false =>
        assign "OPTARG" ""
        finish (String.singleton letter) index offset 0
      | some true =>
        if !rest.isEmpty then
          assign "OPTARG" (String.ofList rest)
          finish (String.singleton letter) index 0 0
        else
          match words[index - 1]? with
          | some value =>
            assign "OPTARG" value
            finish (String.singleton letter) (index + 1) 0 0
          | none =>
            fail letter ("No arg for -" ++ String.singleton letter ++ " option") ":" index 0
  | _ => fault "Usage: getopts optstring var [arg...]"

/-! ## Reading -/

/-- What is read of a line: its runs, with what is escaped kept apart, and whether it has an end. -/
structure Line where
  runs : List Run := []
  plain : List Char := []
  escaped : Bool := false
  ended : Bool := false

def Line.cut (l : Line) : Line :=
  { l with
    runs := .ofText (String.ofList l.plain.reverse) false .atSeparators :: l.runs
    plain := [] }

/-- Reads the input up to the end of a line. -/
def readInput (raw : Bool) : (fuel : Nat) → Line → Exec Line
  | 0, l => return l
  | fuel + 1, l => do
    let (byte, s) := (← get).readByte? 0
    set s
    match byte with
    | none => return l.cut
    | some byte =>
      let c := Char.ofNat byte.toNat
      if c == '\x00' then readInput raw fuel l
      else if l.escaped then
        let l := { l with escaped := false }
        if c == '\n' then readInput raw fuel l
        else
          let l := l.cut
          let run := Run.ofText (String.singleton c) true .nowhere
          readInput raw fuel { l with runs := run :: l.runs }
      else if c == '\\' && !raw then readInput raw fuel { l with escaped := true }
      else if c == '\n' then return { l.cut with ended := true }
      else readInput raw fuel { l with plain := c :: l.plain }

/-- How much there may be to read. -/
def inputSize : Exec Nat := do
  let s ← get
  return ((s.fileOf? 0).map fun file => (s.contents file).size).getD 0

def read : Builtin := fun args => do
  let (options, names) ← withOptions ['r'] ['p'] args
  if names.isEmpty then fault "arg count"
  let raw := options.any (·.1 == 'r')
  let line ← readInput raw ((← inputSize) + 1) {}
  let separators := ((← get).value? "IFS").getD standardSeparators
  let fields := fieldsOfRuns separators (some names.length) line.runs.reverse
  for (name, i) in names.zipIdx do
    assignChecked name ((fields[i]?.map Pattern.text).getD "")
  return if line.ended then 0 else 1

end FolderFlow.Shell
