import FolderFlow.Shell.Builtin.Table
import FolderFlow.Shell.Lookup
import FolderFlow.Shell.Redirection
import FolderFlow.Shell.Script

/-!
# Commands that lead back

The commands that run texts and programs, and those that tell what would be run.
-/

namespace FolderFlow.Shell

namespace Runner

variable (r : Runner)

def eval (place : Place) : Builtin := fun args => do
  if args.isEmpty then return 0
  r.text place.inner (" ".intercalate args)
  return (← get).status

/-- Runs the text of a file. -/
def source : Builtin := fun args => do
  match ← withoutOptions args with
  | [] => return 0
  | path :: _ =>
    let s ← get
    let isThere (path : String) : Bool :=
      match s.locate path with
      | .ok loc => !s.tree.isDir loc && loc != nullFile
      | .error _ => false
    let some path := if path.toList.contains '/' then some path
      else (searchPaths s path).find? isThere
      | fault (path ++ ": not found")
    match openInput s path with
    | .error e => fault ("cannot open " ++ path ++ ": " ++ openReason "No such file" e)
    | .ok file =>
      set { s with speaker := some path }
      r.runText {} .file (ofBytes (s.contents file))
      modify fun s =>
        { s with jump := if s.jump == some .returnCaller then none else s.jump }
      return (← get).status

/-- Runs a program in the place of the shell. -/
def exec : Builtin := fun args => do
  match ← withoutOptions args with
  | [] => return 0
  | name :: args =>
    let leave (status : Nat) (text : String) : Exec Nat := do
      complain (name ++ ": " ++ text)
      setStatus status
      throw .exit
    match findProgram (← get) name with
    | .shell _ =>
      match ← r.program name args with
      | .ok status =>
        modify fun s => { s with status, traps := [] }
        throw .exit
      | .error signal => throw (.died signal)
    | .file _ | .refused => leave 126 "Permission denied"
    | .missing reason => leave 127 reason

/-- Remembers a program that was looked for. -/
def track (name path : String) : Exec Unit := do
  if !name.toList.contains '/' then
    modify fun s => { s with tracked := (name, path) :: s.tracked.filter (·.1 != name) }

/-- What a name stands for; `brief` for what could be written to run it. -/
def describe (brief : Bool) (name : String) : Exec Nat := do
  let s ← get
  let tell (text long : String) : Exec Nat := do
    writeLine (if brief then text else name ++ " is " ++ long)
    return 0
  let missing : Exec Nat := do
    if !brief then writeLine (name ++ ": not found")
    return 127
  match s.aliases.lookup name with
  | some text =>
    if !reservedWords.contains name then
      return ← tell ("alias " ++ name ++ "=" ++ singleQuoted text) ("an alias for " ++ text)
  | none => pure ()
  if reservedWords.contains name then tell name "a shell keyword"
  else if specialCommands.contains name && isBuiltin name then tell name "a special shell builtin"
  else if (s.functions.lookup name).isSome then tell name "a shell function"
  else if isBuiltin name then tell name "a shell builtin"
  else
    match findProgram s name with
    | .shell path =>
      track name path
      tell path (if (s.tracked.lookup name).isSome then "a tracked alias for " ++ path else path)
    | .file path => tell path path
    | .refused | .missing _ => missing

def type : Builtin := fun args => do
  let statuses ← args.mapM (describe false)
  return statuses.foldl (· ||| ·) 0

def commandBuiltin : Builtin := fun args => do
  let (options, args) ← withOptions ['p', 'v', 'V'] [] args
  match args, options.any (·.1 != 'p') with
  | name :: _, true => describe (!options.any (·.1 == 'V')) name
  | _, _ => return 0

/-- Looks for programs, or lists or forgets those that have been found. -/
def hash : Builtin := fun args => do
  let (options, args) ← withOptions ['r'] [] args
  if !options.isEmpty then
    modify fun s => { s with tracked := [] }
    return 0
  if args.isEmpty then (← get).tracked.forM fun t => writeLine t.2
  let s ← get
  let mut status := 0
  for name in args do
    if !isBuiltin name && (s.functions.lookup name).isNone then
      match findProgram s name with
      | .shell path => track name path
      | .file _ => pure ()
      | .refused =>
        complain (name ++ ": Permission denied")
        status := 1
      | .missing reason =>
        complain (name ++ ": " ++ reason)
        status := 1
  return status

def builtin? (place : Place) (name : String) : Option Builtin :=
  match name with
  | "." => some r.source
  | "command" => some commandBuiltin
  | "eval" => some (r.eval place)
  | "exec" => some r.exec
  | "hash" => some hash
  | "type" => some type
  | name => plainBuiltin? name

end Runner

end FolderFlow.Shell
