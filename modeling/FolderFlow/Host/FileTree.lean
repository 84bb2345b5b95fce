import FolderFlow.Host.Path
import FolderFlow.Text.Order

/-!
# File trees

Files and directories at their locations. There are no links, permissions and special files, so that
what is said of all file trees says nothing of those. A path is followed one step at a time, and
every step but the last has to come to a directory. The operations fail where those of a real system
do, and with the same errors.
-/

namespace FolderFlow

/-- The names on the way from the root, the innermost first. -/
abbrev Location := List String

inductive Entry where
  | dir
  | file (bytes : ByteArray)

def Entry.isDir : Entry → Bool
  | dir => true
  | file _ => false

structure FileTree where
  entries : List (Location × Entry)

namespace FileTree

def empty : FileTree :=
  ⟨[]⟩

/-- What is at a location; the root is always a directory. -/
def find? (t : FileTree) (loc : Location) : Option Entry :=
  match loc with
  | [] => some .dir
  | loc => t.entries.lookup loc

def isDir (t : FileTree) (loc : Location) : Bool :=
  (t.find? loc).any Entry.isDir

/-- Puts an entry at a location other than the root. -/
def put (t : FileTree) (loc : Location) (entry : Entry) : FileTree :=
  ⟨(loc, entry) :: t.entries.filter fun e => e.1 != loc⟩

/-- Takes away what is at a location and below it. -/
def cut (t : FileTree) (loc : Location) : FileTree :=
  ⟨t.entries.filter fun e => !loc.isSuffixOf e.1⟩

theorem lookup_filter_ne (entries : List (Location × Entry)) {loc other : Location}
    (h : other ≠ loc) :
    (entries.filter fun e => e.1 != loc).lookup other = entries.lookup other := by
  induction entries with
  | nil => rfl
  | cons e entries ih =>
    obtain ⟨l, entry⟩ := e
    by_cases hl : l = loc
    · subst hl
      have hne : (other == l) = false := by simpa using h
      simp [List.lookup_cons, hne, ih]
    · by_cases ho : other = l
      · subst ho
        simp [hl]
      · have hne : (other == l) = false := by simpa using ho
        simp [hl, List.lookup_cons, hne, ih]

theorem find?_put_self (t : FileTree) {loc : Location} (entry : Entry) (h : loc ≠ []) :
    (t.put loc entry).find? loc = some entry := by
  cases loc with
  | nil => exact absurd rfl h
  | cons name outer => simp [find?, put]

theorem find?_put_of_ne (t : FileTree) {loc other : Location} (entry : Entry) (h : other ≠ loc) :
    (t.put loc entry).find? other = t.find? other := by
  cases other with
  | nil => rfl
  | cons name outer =>
    have hne : ((name :: outer) == loc) = false := by simpa using h
    simp [find?, put, List.lookup_cons, hne, lookup_filter_ne t.entries h]

/-! ## Following paths -/

open FolderFlow.Path (Step)

/-- The location that a directory must be at for a step to start there. -/
def enter (t : FileTree) (loc : Location) : Except SystemError Location :=
  if t.isDir loc then .ok loc else .error .notADirectory

/-- One step from a directory. -/
def take (t : FileTree) (loc : Location) : Step → Except SystemError Location
  | .here => .ok loc
  | .up => .ok (loc.drop 1)
  | .down name =>
    if Path.isLong Path.maxName name then .error .nameTooLong
    else if (t.find? (name :: loc)).isSome then .ok (name :: loc)
    else .error .notFound

/-- Follows steps, of which the last comes first, from a location. -/
def follow (t : FileTree) (start : Location) : List Step → Except SystemError Location
  | [] => .ok start
  | step :: steps => do
    let loc ← follow t start steps
    t.take (← t.enter loc) step

/-- Where the steps of a path start, given the working directory. -/
def startOf (cwd : Location) (path : String) : Location :=
  if Path.isAbsolute path then [] else cwd

/-- The location of what is at a path. A slash at the end asks for a directory. -/
def locate (t : FileTree) (cwd : Location) (path : String) : Except SystemError Location := do
  Path.check path
  let loc ← t.follow (startOf cwd path) (Path.steps path)
  if Path.endsInSlash path then t.enter loc else return loc

/-! ## Files -/

def readBytes (t : FileTree) (cwd : Location) (path : String) : Except SystemError ByteArray := do
  match t.find? (← t.locate cwd path) with
  | some (.file bytes) => return bytes
  | some .dir => .error .isADirectory
  | none => .error .notFound

def readText (t : FileTree) (cwd : Location) (path : String) : Except SystemError String := do
  match String.fromUTF8? (← t.readBytes cwd path) with
  | some text => return text
  | none => .error .notUtf8

/-- The location of a file that is to be written. Its directory must be there, and what is at the
location must not be a directory. -/
def target (t : FileTree) (cwd : Location) (path : String) : Except SystemError Location := do
  Path.check path
  match Path.steps path with
  | .down name :: steps =>
    let dir ← t.enter (← t.follow (startOf cwd path) steps)
    if Path.endsInSlash path then .error .isADirectory
    else if Path.isLong Path.maxName name then .error .nameTooLong
    else if t.isDir (name :: dir) then .error .isADirectory
    else return name :: dir
  | steps =>
    let _ ← t.follow (startOf cwd path) steps
    .error .isADirectory

/-- Writes a whole file, new or not. -/
def writeBytes (t : FileTree) (cwd : Location) (path : String) (bytes : ByteArray) :
    Except SystemError FileTree := do
  return t.put (← t.target cwd path) (.file bytes)

/-! ## Directories -/

/-- Makes one directory, which must not be there. -/
def makeDir (t : FileTree) (start : Location) : List Step → Except SystemError FileTree
  | .down name :: steps => do
    let dir ← t.enter (← t.follow start steps)
    if Path.isLong Path.maxName name then .error .nameTooLong
    else if (t.find? (name :: dir)).isSome then .error .alreadyExists
    else return t.put (name :: dir) .dir
  | [] => .error .alreadyExists
  | _ :: steps => do
    let _ ← t.enter (← t.follow start steps)
    .error .alreadyExists

/-- Whether a directory is at the end of the steps. -/
def leadsToDir (t : FileTree) (start : Location) (steps : List Step) : Bool :=
  match t.follow start steps with
  | .ok loc => t.isDir loc
  | .error _ => false

theorem length_above (step : Step) (steps : List Step) :
    (Path.above (step :: steps)).length < (step :: steps).length := by
  have hdrop (l : List Step) : (l.dropWhile (· == Step.here)).length ≤ l.length :=
    (List.dropWhile_sublist _).length_le
  have hfirst := hdrop (step :: steps)
  have hsecond := hdrop (((step :: steps).dropWhile (· == Step.here)).drop 1)
  simp only [List.length_drop, List.length_cons] at hfirst hsecond
  simp only [Path.above, List.length_cons]
  omega

/-- The outcome of making the last directory: it is no fault when it is there. -/
def makeLast (t : FileTree) (start : Location) (steps : List Step) :
    FileTree × Except SystemError Unit :=
  match t.makeDir start steps with
  | .ok t => (t, .ok ())
  | .error e => if t.leadsToDir start steps then (t, .ok ()) else (t, .error e)

/-- Makes the directory at the end of the steps, after those above it where one is missing. What has
been made stays when a later step fails. -/
def makeDirs (t : FileTree) (start : Location) (steps : List Step) :
    FileTree × Except SystemError Unit :=
  match steps with
  | [] => (t, .ok ())
  | step :: steps =>
    match t.makeDir start (step :: steps) with
    | .error .notFound =>
      match makeDirs t start (Path.above (step :: steps)) with
      | (t, .ok ()) => t.makeLast start (step :: steps)
      | (t, .error e) => (t, .error e)
    | _ => t.makeLast start (step :: steps)
termination_by steps.length
decreasing_by exact length_above step steps

/-- Nothing has to be made for the empty path. -/
def createDirs (t : FileTree) (cwd : Location) (path : String) :
    FileTree × Except SystemError Unit :=
  if path.isEmpty then (t, .ok ())
  else
    match Path.check path with
    | .ok () => t.makeDirs (startOf cwd path) (Path.steps path)
    | .error e => (t, .error e)

/-! ## Views -/

/-- The absolute path of a location. -/
def pathOf (loc : Location) : String :=
  "/" ++ "/".intercalate loc.reverse

/-- What is below a directory: the paths seen from there, in the order of their bytes. -/
def below (t : FileTree) (dir : Location) : List (String × Entry) :=
  let inside := t.entries.filter fun e => dir.isSuffixOf e.1 && e.1 != dir
  let named := inside.map fun e =>
    ("/".intercalate (e.1.take (e.1.length - dir.length)).reverse, e.2)
  named.mergeSort fun a b => Text.atMost a.1 b.1

end FileTree

end FolderFlow
