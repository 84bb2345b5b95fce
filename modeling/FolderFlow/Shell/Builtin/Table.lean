import FolderFlow.Shell.Builtin.Alias
import FolderFlow.Shell.Builtin.Jobs
import FolderFlow.Shell.Builtin.Limits
import FolderFlow.Shell.Builtin.Output
import FolderFlow.Shell.Builtin.Process
import FolderFlow.Shell.Builtin.Signals
import FolderFlow.Shell.Builtin.Variables

/-!
# The commands of the shell

The commands that a shell has itself, by their names.
-/

namespace FolderFlow.Shell

/-- The commands that need nothing but their arguments. -/
def plainBuiltin? (name : String) : Option Builtin :=
  match name with
  | ":" | "true" => some fun _ => return 0
  | "false" => some fun _ => return 1
  | "[" => some bracketTest
  | "alias" => some aliasCommand
  | "bg" | "fg" => some continueJob
  | "break" => some (leaveLoops .breakLoops)
  | "cd" | "chdir" => some changeDir
  | "continue" => some (leaveLoops .continueLoop)
  | "echo" => some echo
  | "exit" => some exit
  | "export" => some exportCommand
  | "getopts" => some getopts
  | "jobs" => some jobsCommand
  | "kill" => some kill
  | "local" => some localCommand
  | "printf" => some printf
  | "pwd" => some pwd
  | "read" => some read
  | "readonly" => some readonly
  | "return" => some returnCaller
  | "set" => some setCommand
  | "shift" => some shift
  | "test" => some test
  | "times" => some times
  | "trap" => some trap
  | "ulimit" => some ulimit
  | "umask" => some umask
  | "unalias" => some unalias
  | "unset" => some unset
  | "wait" => some wait
  | _ => none

/-- The commands that lead back to the shell. -/
def runningBuiltins : List String :=
  [".", "command", "eval", "exec", "hash", "type"]

def isBuiltin (name : String) : Bool :=
  (plainBuiltin? name).isSome || runningBuiltins.contains name

/-- Whether the arguments of a command may be assignments. -/
def takesAssignments (name : String) : Bool :=
  ["alias", "export", "local", "readonly"].contains name

end FolderFlow.Shell
