import FolderFlow.Shell.Program

/-!
# Sandboxes with a shell

A new sandbox has an empty working directory, one program, the shell, and the file to which output
is sent that nobody wants. No program is found by its name, since the directory of the search path
is missing. Formatters are given as scripts of the shell.
-/

namespace FolderFlow.Shell

def workDir : Location :=
  ["work"]

def programs (loc : Location) : Option Program :=
  if loc = shellFile then some program else none

def newTree : FileTree where
  entries := [
    (["bin"], .dir),
    (shellFile, .file .empty),
    (["dev"], .dir),
    (nullFile, .file .empty),
    (workDir, .dir)]

def newWorld : World where
  tree := newTree
  cwd := workDir
  programs := programs
  output := ""
  searchPath := ["/nonexistent"]

end FolderFlow.Shell
