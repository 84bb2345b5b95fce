import FolderFlow.Host.Error
import FolderFlow.Host.Process

/-!
# The host

The operations that a command may use: it reads and writes text files, makes directories, starts
programs and prints. Commands are written for any monad with these operations, so that the same
definitions run on a real system and on a file tree in memory.
-/

namespace FolderFlow

class Host (m : Type → Type) where
  readText (path : String) : m (Except SystemError String)
  /-- Writes a whole file, which need not be there yet; its directory must be. -/
  writeText (path text : String) : m (Except SystemError Unit)
  /-- Makes a directory and those above it that are missing. -/
  createDirs (path : String) : m (Except SystemError Unit)
  pathExists (path : String) : m Bool
  /-- The absolute path of what is there, without detours. -/
  realPath (path : String) : m (Except SystemError String)
  launch (command : Launch) : m (Except SystemError Exit)
  /-- Writes text to the standard output. -/
  print (text : String) : m Unit

namespace Host

variable {m : Type → Type} [Host m]

def printLine (text : String) : m Unit :=
  print (text ++ "\n")

end Host

end FolderFlow
