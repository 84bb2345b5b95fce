import FolderFlow.Host.Error
import FolderFlow.Text.Utf8

/-!
# Paths

A path is a text in which slashes divide the steps from a directory to a file. Names are taken as
they are; the step to the directory itself and the step out of it have names of their own.
-/

namespace FolderFlow

namespace Path

/-! ## Texts -/

def isAbsolute (path : String) : Bool :=
  path.toList.head? == some '/'

def endsInSlash (path : String) : Bool :=
  path.toList.getLast? == some '/'

/-- The path of `file` seen from `dir`. An absolute path stays as it is, and nothing is put before a
path seen from the empty one. -/
def join (dir file : String) : String :=
  if isAbsolute file || dir.isEmpty then file
  else if endsInSlash dir then dir ++ file
  else dir ++ "/" ++ file

/-! ## Steps -/

inductive Step where
  | here
  | up
  | down (name : String)
  deriving DecidableEq, Repr

/-- No step is made where two slashes meet. -/
def Step.ofText? : String → Option Step
  | "" => none
  | "." => some .here
  | ".." => some .up
  | name => some (.down name)

/-- The parts of a text between slashes. -/
def splitSlashes : List Char → List (List Char)
  | [] => [[]]
  | c :: cs =>
    if c == '/' then [] :: splitSlashes cs
    else
      match splitSlashes cs with
      | [] => [[c]]
      | p :: ps => (c :: p) :: ps

/-- The steps of a path, the last one first. -/
def steps (path : String) : List Step :=
  ((splitSlashes path.toList).filterMap fun part => Step.ofText? (String.ofList part)).reverse

/-- The steps to the directory above. -/
def above (steps : List Step) : List Step :=
  ((steps.dropWhile (· == .here)).drop 1).dropWhile (· == .here)

/-! ## Extensions -/

/-- The name at the end of a path. -/
def fileName? (path : String) : Option String :=
  match (steps path).dropWhile (· == .here) with
  | .down name :: _ => some name
  | _ => none

/-- What follows the last dot of the name; a dot at its beginning does not count. -/
def extension? (path : String) : Option String :=
  (fileName? path).bind fun name =>
    let tail := name.toList.reverse.takeWhile (· != '.')
    if tail.length + 1 < name.length then some (String.ofList tail.reverse) else none

/-! ## Limits -/

/-- The most bytes of a name. -/
def maxName : Nat :=
  255

/-- The most bytes of a path. -/
def maxPath : Nat :=
  4095

def isLong (limit : Nat) (text : String) : Bool :=
  limit < Text.utf8Length text.toList

/-- What keeps the system from looking at a path at all. -/
def check (path : String) : Except SystemError Unit :=
  if path.toList.contains '\x00' then .error .zeroInPath
  else if path.isEmpty then .error .notFound
  else if isLong maxPath path then .error .nameTooLong
  else .ok ()

end Path

end FolderFlow
