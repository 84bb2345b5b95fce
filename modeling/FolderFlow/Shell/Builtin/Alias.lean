import FolderFlow.Shell.Builtin.Basic

/-!
# Aliases

The commands about words that stand for texts. An alias is replaced when a command is read, so it
is of effect from the next line on.
-/

namespace FolderFlow.Shell

/-- A sum of a name, by which aliases are listed. -/
def aliasOrder (name : String) : Nat :=
  let codes := name.toList.map Char.toNat
  (16 * codes.headD 0 + codes.foldl (· + ·) 0) % 39

def writeAlias (name text : String) : Exec Unit :=
  writeLine (name ++ "=" ++ singleQuoted text)

/-- The name and the text of a definition. The name has at least one character. -/
def definition? (text : String) : Option (String × String) :=
  match text.toList with
  | [] => none
  | c :: cs =>
    match cs.dropWhile (· != '=') with
    | [] => none
    | _ :: rest => some (String.ofList (c :: cs.takeWhile (· != '=')), String.ofList rest)

def setAlias (name text : String) : Exec Unit :=
  modify fun s =>
    let aliases :=
      if s.aliases.any (·.1 == name) then
        s.aliases.map fun a => if a.1 == name then (name, text) else a
      else s.aliases ++ [(name, text)]
    { s with aliases }

def aliasCommand : Builtin := fun args => do
  let aliases := (← get).aliases
  if args.isEmpty then
    let sorted := aliases.mergeSort fun a b => aliasOrder a.1 ≤ aliasOrder b.1
    for (name, text) in sorted do
      writeAlias name text
  let mut status := 0
  for arg in args do
    match definition? arg with
    | some (name, text) => setAlias name text
    | none =>
      match (← get).aliases.lookup arg with
      | some text => writeAlias arg text
      | none =>
        writeError ("alias: " ++ arg ++ " not found\n")
        status := 1
  return status

def unalias : Builtin := fun args => do
  let (options, args) ← withOptions ['a'] [] args
  if options.isEmpty then
    let mut status := 0
    for arg in args do
      let s ← get
      if s.aliases.any (·.1 == arg) then
        set { s with aliases := s.aliases.filter (·.1 != arg) }
      else
        writeError ("unalias: " ++ arg ++ " not found\n")
        status := 1
    return status
  else
    modify fun s => { s with aliases := [] }
    return 0

end FolderFlow.Shell
