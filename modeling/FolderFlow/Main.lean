import FolderFlow.CommandLine.Run

/-!
# The program

The real system as a host, and the entry point. Starting a program always fails here, so that a
formatter that is asked for never runs and is reported as skipped; what one that runs does to the
files is told by the sandbox alone.
-/

namespace FolderFlow

namespace OperatingSystem

/-- Numbers of errors come with either sign. -/
def magnitude (n : UInt32) : Nat :=
  if n < 0x80000000 then n.toNat else (0 - n).toNat

def ofNumber (n : UInt32) (details : String) : SystemError :=
  match magnitude n with
  | 2 => .notFound
  | 13 => .permissionDenied
  | 17 => .alreadyExists
  | 20 => .notADirectory
  | 21 => .isADirectory
  | 36 => .nameTooLong
  | _ => .other details

def ofError (e : IO.Error) : SystemError :=
  match e with
  | .noFileOrDirectory _ n details => ofNumber n details
  | .permissionDenied _ n details => ofNumber n details
  | .alreadyExists _ n details => ofNumber n details
  | .inappropriateType _ n details => ofNumber n details
  | .invalidArgument _ n details => ofNumber n details
  | e => .other (toString e)

/-- Runs an action and keeps its error. -/
def attempt {α : Type} (action : IO α) : IO (Except SystemError α) := do
  try
    return .ok (← action)
  catch e =>
    return .error (ofError e)

def readText (path : String) : IO (Except SystemError String) := do
  match ← attempt (IO.FS.readBinFile path) with
  | .error e => return .error e
  | .ok bytes =>
    match String.fromUTF8? bytes with
    | some text => return .ok text
    | none => return .error .notUtf8

def realPath (path : String) : IO (Except SystemError String) :=
  attempt do return toString (← IO.FS.realPath path)

def createDirs (path : String) : IO (Except SystemError Unit) :=
  if path.isEmpty then return .ok () else attempt (IO.FS.createDirAll path)

end OperatingSystem

instance : Host IO where
  readText := OperatingSystem.readText
  writeText path text := OperatingSystem.attempt (IO.FS.writeFile path text)
  createDirs := OperatingSystem.createDirs
  pathExists path := do return (← OperatingSystem.realPath path).isOk
  realPath := OperatingSystem.realPath
  launch _ := return .error (.other "programs cannot be started")
  print text := do (← IO.getStdout).putStr text

/-- An error as it is reported, with what lies behind it. -/
def CommandError.report (e : CommandError) : String :=
  "Error: " ++ e.message ++
    match e.detail? with
    | some detail => "\n\nCaused by:\n    " ++ detail
    | none => ""

/-- Does what the words of the command line ask for, and gives the code to end with. -/
def runProgram (args : List String) : IO UInt32 := do
  let invocation := Invocation.ofArgs args
  let outcome ← invocation.perform
  if let some e := outcome.error then
    IO.eprintln e.report
  if invocation = .usageError then
    Invocation.helpLines.forM IO.eprintln
  return outcome.code.toUInt32

end FolderFlow

def main (args : List String) : IO UInt32 :=
  FolderFlow.runProgram args
