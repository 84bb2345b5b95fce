import FolderFlow.Host.Basic
import FolderFlow.Text.Blank
import FolderFlow.Text.Utf8

/-!
# Formatters

A formatter is a program that is run on the docs file once its text has changed.
-/

namespace FolderFlow

structure Formatter where
  program : String
  args : List String
  /-- Where it runs, if not in the working directory. -/
  dir : Option String := none
  deriving DecidableEq, Repr

inductive FormatError where
  | notStarted (program : String) (cause : SystemError)
  | failed (program : String) (status : ExitStatus) (stderr : String)
  deriving DecidableEq, Repr

def FormatError.message : FormatError → String
  | notStarted program cause => "failed to run `" ++ program ++ "`: " ++ cause.message
  | failed program status stderr =>
    "`" ++ program ++ "` exited with " ++ status.describe ++ ": " ++ stderr

namespace Formatter

def prettier : Formatter where
  program := "npx"
  args := ["prettier", "--write"]

/-- The file comes last among the arguments. -/
def launchOn (f : Formatter) (file : String) : Launch where
  program := f.program
  args := f.args ++ [file]
  dir := f.dir

/-- What the end of the program means. -/
def judge (f : Formatter) : Except SystemError Exit → Except FormatError Unit
  | .error cause => .error (.notStarted f.program cause)
  | .ok exit =>
    if exit.status.isSuccess then .ok ()
    else .error (.failed f.program exit.status (Text.trim (Text.decodeLossy exit.stderr)))

variable {m : Type → Type} [Monad m] [Host m]

def run (f : Formatter) (file : String) : m (Except FormatError Unit) := do
  return f.judge (← Host.launch (f.launchOn file))

end Formatter

end FolderFlow
