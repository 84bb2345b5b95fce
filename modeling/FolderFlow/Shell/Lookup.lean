import FolderFlow.Shell.State

/-!
# Finding programs

Programs are found by their paths, or by their names in the directories that the script has set. The
only program there is is the shell itself.
-/

namespace FolderFlow.Shell

/-- What a program is found as. -/
inductive Found where
  | shell (path : String)
  /-- A file that is no program. -/
  | file (path : String)
  /-- Only such files have the name where programs are looked for. -/
  | refused
  | missing (reason : String)

/-- The file at a path as a program. -/
def findAt (s : State) (path : String) : Found :=
  match s.locate path with
  | .ok loc => if loc == shellFile then .shell path else .file path
  | .error .notFound | .error .notADirectory => .missing "not found"
  | .error e => .missing e.reason

/-- Where a name may be found: in the directories that the script has set. -/
def searchPaths (s : State) (name : String) : List String :=
  (splitAt ':' ((s.value? "PATH").getD "").toList).map fun dir =>
    if dir.isEmpty then name else dir ++ "/" ++ name

def search (s : State) (name : String) : Found :=
  let found := (if name.isEmpty then [] else searchPaths s name).map (findAt s)
  let shell := found.find? fun
    | .shell _ => true
    | _ => false
  let isRefused := found.any fun
    | .file _ => true
    | _ => false
  shell.getD (if isRefused then .refused else .missing "not found")

def findProgram (s : State) (name : String) : Found :=
  if name.toList.contains '/' then findAt s name else search s name

end FolderFlow.Shell
