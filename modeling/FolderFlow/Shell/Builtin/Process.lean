import FolderFlow.Shell.Builtin.Test

/-!
# Places and processes

The commands about where a shell is and how it leaves what it is running.
-/

namespace FolderFlow.Shell

/-! ## Directories -/

/-- Where the steps of a path lead, whether there is something on the way or not. -/
def destination (cwd : Location) (path : String) : Location :=
  (Path.steps (decode path)).foldr step (FileTree.startOf cwd path)
where
  step : Path.Step → Location → Location
    | .here, loc => loc
    | .up, loc => loc.drop 1
    | .down name, loc => name :: loc

def setDirectory (loc : Location) : Exec Unit := do
  let s ← get
  let place (name path : String) (s : State) : State :=
    s.put name ⟨some path, true, false⟩
  set (place "PWD" (encode (FileTree.pathOf loc))
    (place "OLDPWD" (encode (FileTree.pathOf s.cwd)) { s with cwd := loc }))

def changeDir : Builtin := fun args => do
  let (_, args) ← withOptions ['L', 'P'] [] args
  let s ← get
  let (dir, shows) : String × Bool := match args with
    | [] => ((s.value? "HOME").getD "", false)
    | "-" :: _ => ((s.value? "OLDPWD").getD "", true)
    | dir :: _ => (dir, false)
  let loc := destination s.cwd dir
  if !s.tree.isDir loc then fault ("can't cd to " ++ dir)
  setDirectory loc
  if shows then writeLine (encode (FileTree.pathOf loc))
  return 0

def pwd : Builtin := fun args => do
  let _ ← withOptions ['L', 'P'] [] args
  writeLine (encode (FileTree.pathOf (← get).cwd))
  return 0

/-! ## Leaving -/

/-- The status that a command is left with. -/
def leavingStatus (args : List String) : Exec Nat := do
  match args with
  | arg :: _ => number arg
  | [] =>
    let s ← get
    return s.trapStatus.getD s.status

def exit : Builtin := fun args => do
  setStatus (← leavingStatus args)
  throw .exit

def returnCaller : Builtin := fun args => do
  let status ← match args with
    | arg :: _ => number arg
    | [] => pure (← get).status
  modify fun s => { s with jump := some .returnCaller }
  return status

/-- Leaves as many loops as there are, at most as many as are asked for. -/
def leaveLoops (jump : Nat → Jump) : Builtin := fun args => do
  let count ← match args with
    | [] => pure 1
    | arg :: _ =>
      let n ← number arg
      if n = 0 then illegalNumber arg else pure n
  let count := min count (← get).loopDepth
  if 0 < count then modify fun s => { s with jump := some (jump count) }
  return 0

/-! ## Times -/

def times : Builtin := fun _ => do
  writeLine "0m0.000000s 0m0.000000s\n0m0.000000s 0m0.000000s"
  return 0

end FolderFlow.Shell
