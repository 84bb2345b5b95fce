/-!
# System errors

Why the system refuses an operation on a file or the start of a program, in the words of the system
and with its number.
-/

namespace FolderFlow

inductive SystemError where
  | notFound
  | permissionDenied
  | alreadyExists
  | notADirectory
  | isADirectory
  | nameTooLong
  /-- A file that should hold text holds bytes that are not UTF-8. -/
  | notUtf8
  /-- A path with a zero byte in it. -/
  | zeroInPath
  /-- A zero byte in what is handed to a program. -/
  | zeroInArgument
  | other (text : String)
  deriving DecidableEq, Repr

namespace SystemError

/-- The words of the system. -/
def reason : SystemError → String
  | notFound => "No such file or directory"
  | permissionDenied => "Permission denied"
  | alreadyExists => "File exists"
  | notADirectory => "Not a directory"
  | isADirectory => "Is a directory"
  | nameTooLong => "File name too long"
  | notUtf8 => "stream did not contain valid UTF-8"
  | zeroInPath => "file name contained an unexpected NUL byte"
  | zeroInArgument => "nul byte found in provided data"
  | other text => text

/-- The number of the system, where the system itself refuses. -/
def number? : SystemError → Option Nat
  | notFound => some 2
  | permissionDenied => some 13
  | alreadyExists => some 17
  | notADirectory => some 20
  | isADirectory => some 21
  | nameTooLong => some 36
  | _ => none

def message (e : SystemError) : String :=
  match e.number? with
  | some n => e.reason ++ " (os error " ++ toString n ++ ")"
  | none => e.reason

end SystemError

end FolderFlow
