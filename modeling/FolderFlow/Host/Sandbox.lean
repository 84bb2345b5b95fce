import FolderFlow.Host.Basic
import FolderFlow.Host.FileTree

/-!
# Sandboxes

A host in memory: a file tree with a working directory, the programs that can be started, and what
has been printed. A program is given by its path or by a name, which is looked for in the
directories of the search path.
-/

namespace FolderFlow

/-- What a program makes of the files, run under a name with some arguments in a directory. -/
structure Program where
  run (name : String) (args : List String) (cwd : Location) (tree : FileTree) : FileTree × Exit

structure World where
  tree : FileTree
  cwd : Location
  programs : Location → Option Program
  output : String
  /-- Where programs are looked for that are given by name, the first directory first. The empty
  path stands for the directory in which the program is to run. -/
  searchPath : List String := []

/-- Computations on a world. -/
abbrev Sandbox := StateM World

namespace World

/-! ## Starting programs -/

/-- The directory in which a program is to run. -/
def launchDir (w : World) (command : Launch) : Except SystemError Location :=
  match command.dir with
  | none => .ok w.cwd
  | some dir => do w.tree.enter (← w.tree.locate w.cwd dir)

def hasZero (text : String) : Bool :=
  text.toList.contains '\x00'

/-- A directory of the search path, seen from the directory of the launch. -/
def searchedDir (w : World) (start : Location) (dir : String) : Except SystemError Location :=
  if dir.isEmpty then .ok start else w.tree.locate start dir

/-- What has a name in a directory of the search path: a program, or what may not be executed. -/
def programIn (w : World) (start : Location) (name dir : String) :
    Except SystemError (Option Program) := do
  let loc ← w.searchedDir start dir
  return w.programs (← w.tree.follow loc (Path.steps name))

/-- The first program that is found in the directories. Those in which there is nothing of the name
are passed over, and so is what may not be executed, which is the fault then if no program is found
behind it. -/
def firstProgram (found : String → Except SystemError (Option Program)) :
    List String → Except SystemError Program
  | [] => .error .notFound
  | dir :: dirs =>
    match found dir with
    | .ok (some program) => .ok program
    | .ok none =>
      match firstProgram found dirs with
      | .error .notFound => .error .permissionDenied
      | result => result
    | .error .notFound | .error .notADirectory => firstProgram found dirs
    | .error e => .error e

/-- The program at a path, or the one that has the name. -/
def programFor (w : World) (start : Location) (program : String) : Except SystemError Program := do
  if program.isEmpty then .error .notFound
  else if program.toList.contains '/' then
    match w.programs (← w.tree.locate start program) with
    | some found => return found
    | none => .error .permissionDenied
  else firstProgram (w.programIn start program) w.searchPath

/-- The program that a launch starts, and its directory. -/
def findProgram (w : World) (command : Launch) : Except SystemError (Program × Location) := do
  if (command.program :: command.args ++ command.dir.toList).any hasZero then
    .error .zeroInArgument
  let dir ← w.launchDir command
  return (← w.programFor dir command.program, dir)

/-! ## Operations -/

def readText (w : World) (path : String) : Except SystemError String :=
  w.tree.readText w.cwd path

def writeText (w : World) (path text : String) : Except SystemError Unit × World :=
  match w.tree.writeBytes w.cwd path text.toUTF8 with
  | .ok tree => (.ok (), { w with tree })
  | .error e => (.error e, w)

def createDirs (w : World) (path : String) : Except SystemError Unit × World :=
  let (tree, result) := w.tree.createDirs w.cwd path
  (result, { w with tree })

def pathExists (w : World) (path : String) : Bool :=
  (w.tree.locate w.cwd path).isOk

def realPath (w : World) (path : String) : Except SystemError String :=
  (w.tree.locate w.cwd path).map FileTree.pathOf

def launch (w : World) (command : Launch) : Except SystemError Exit × World :=
  match w.findProgram command with
  | .error e => (.error e, w)
  | .ok (program, dir) =>
    let (tree, exit) := program.run command.program command.args dir w.tree
    (.ok exit, { w with tree })

def print (w : World) (text : String) : World :=
  { w with output := w.output ++ text }

/-! ## Setting up -/

/-- Puts a file or a directory at a path, with the directories above it. -/
def place (w : World) (path : String) (entry : Entry) : World :=
  let start := FileTree.startOf w.cwd path
  let (tree, _) := w.tree.makeDirs start (Path.above (Path.steps path))
  match entry with
  | .dir => { w with tree := (tree.makeDirs start (Path.steps path)).1 }
  | .file bytes =>
    match tree.writeBytes w.cwd path bytes with
    | .ok tree => { w with tree }
    | .error _ => { w with tree }

/-- Takes away what is at a path and below it; tells whether there was anything. -/
def remove (w : World) (path : String) : Bool × World :=
  match w.tree.locate w.cwd path with
  | .ok loc => (true, { w with tree := w.tree.cut loc })
  | .error _ => (false, w)

/-- What is at a path. -/
def entryAt? (w : World) (path : String) : Option Entry :=
  match w.tree.locate w.cwd path with
  | .ok loc => w.tree.find? loc
  | .error _ => none

end World

instance : Host Sandbox where
  readText path := fun w => (w.readText path, w)
  writeText path text := fun w => w.writeText path text
  createDirs path := fun w => w.createDirs path
  pathExists path := fun w => (w.pathExists path, w)
  realPath path := fun w => (w.realPath path, w)
  launch command := fun w => w.launch command
  print text := fun w => ((), w.print text)

end FolderFlow
