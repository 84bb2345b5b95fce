import FolderFlow.Host.Sandbox
import FolderFlow.Shell.Bytes
import FolderFlow.Shell.Job
import FolderFlow.Shell.Limit
import FolderFlow.Shell.Syntax

/-!
# The state of a shell

Part of the state belongs to the system and is seen by all shells that a script starts: the file
tree, the open files and the documents of the script. The rest belongs to one shell.
-/

namespace FolderFlow.Shell

/-! ## Open files -/

/-- The file to which output is sent that nobody wants. -/
def nullFile : Location :=
  ["null", "dev"]

/-- The file of the shell itself. -/
def shellFile : Location :=
  ["sh", "bin"]

/-- What an open file reads and writes. -/
inductive Channel where
  /-- Nothing comes out of it, and what goes in is lost. -/
  | null
  /-- What goes in comes out. Some pipes break when more goes in than they can hold. -/
  | pipe (bytes : ByteArray) (breaks : Bool := false)
  | file (loc : Location)

/-- A file as it was opened, with the place that has been reached in it. -/
structure OpenFile where
  channel : Channel
  offset : Nat := 0
  readable : Bool := true
  writable : Bool := true
  append : Bool := false

/-! ## Shells -/

structure Variable where
  value : Option String
  exported : Bool := false
  readOnly : Bool := false

/-- A jump out of the commands that are being run. -/
inductive Jump where
  | breakLoops (count : Nat)
  | continueLoop (count : Nat)
  | returnCaller
  deriving DecidableEq, Repr

/-- Why no further command of a shell is run. -/
inductive Stop where
  /-- A complaint that only some commands survive. -/
  | fault
  | exit
  /-- The shell goes on with its input if it is interactive. -/
  | interrupted
  /-- The shell is ended by a signal. -/
  | died (signal : Nat)
  /-- The shell is in a loop that does not end. -/
  | endless
  deriving DecidableEq, Repr

/-- What is put back when a function or a command ends. -/
structure Saved where
  bindings : List (String × Option Variable) := []
  options : Option (List Char) := none

structure State where
  -- The system.
  tree : FileTree
  files : Array OpenFile
  documents : List (Nat × Word)
  /-- Signals to the first shell that it has not seen yet. -/
  signals : List Nat := []
  /-- The signal that has ended the first shell while others have not ended yet. -/
  fatal : Option Nat := none
  jobCount : Nat := 0
  -- The shell.
  cwd : Location
  /-- The open files that the numbers of streams stand for. -/
  streams : List (Nat × Nat)
  bindings : List (String × Variable)
  functions : List (String × Command) := []
  /-- The texts that words stand for where a command may begin. -/
  aliases : List (String × String) := []
  /-- The programs that have been found by their names, with their paths. -/
  tracked : List (String × String) := []
  /-- The name that begins every complaint. -/
  name : String
  args : List String
  options : List Char := []
  status : Nat := 0
  /-- The status of the last command whose output was put into a word. -/
  outputStatus : Nat := 0
  line : Nat := 0
  /-- The line up to which the script has been read. -/
  readLine : Nat := 0
  /-- Whether the end of the text that was read last has been seen. -/
  isReadOut : Bool := false
  /-- The command that complaints are about. -/
  speaker : Option String := none
  traps : List (Nat × String) := []
  /-- The signals that were ignored when the shell began, which no trap can change. -/
  ignored : List Nat := []
  /-- The traps of the first shell, as they were when it started this one. -/
  firstTraps : List (Nat × String) := []
  jump : Option Jump := none
  loopDepth : Nat := 0
  callDepth : Nat := 0
  saved : List Saved := []
  /-- The jobs, the last one first. -/
  jobs : List Job := []
  /-- The process of the last job, which may be gone. -/
  lastJob : Option Nat := none
  isFirst : Bool := true
  /-- Whether the shell is run as a job or by one. -/
  inJob : Bool := false
  /-- The access that files are created without, one bit for each kind of it. -/
  mask : Nat := 0o22
  limits : List (Char × Limit) := Limit.first
  /-- Which word of the arguments is read for options next, and how far in the one before. -/
  optionIndex : Nat := 1
  optionOffset : Nat := 0
  /-- Whether the command that is being run could not write something. -/
  outputFailed : Bool := false
  /-- The status before the trap that is being run. -/
  trapStatus : Option Nat := none

/-- What a shell does. -/
abbrev Exec := ExceptT Stop (StateM State)

namespace State

/-! ## Streams -/

def fileOf? (s : State) (stream : Nat) : Option OpenFile := do
  s.files[← s.streams.lookup stream]?

def setStream (s : State) (stream file : Nat) : State :=
  { s with streams := (stream, file) :: s.streams.filter fun e => e.1 != stream }

def closeStream (s : State) (stream : Nat) : State :=
  { s with streams := s.streams.filter fun e => e.1 != stream }

/-- Opens a file as a new one and gives its number. -/
def openNew (s : State) (file : OpenFile) : State × Nat :=
  ({ s with files := s.files.push file }, s.files.size)

def setFile (s : State) (number : Nat) (file : OpenFile) : State :=
  { s with files := s.files.setIfInBounds number file }

/-- All that can be read from an open file. -/
def contents (s : State) (file : OpenFile) : ByteArray :=
  match file.channel with
  | .null => .empty
  | .pipe bytes _ => bytes
  | .file loc =>
    match s.tree.find? loc with
    | some (.file bytes) => bytes
    | _ => .empty

/-- Puts bytes into others from some place on, behind zeros where there are too few. -/
def overwrite (old : ByteArray) (offset : Nat) (new : ByteArray) : ByteArray :=
  let filled := if old.size < offset then old ++ ⟨Array.replicate (offset - old.size) 0⟩ else old
  filled.extract 0 offset ++ new ++ filled.extract (offset + new.size) filled.size

def limit (s : State) (letter : Char) : Limit :=
  (s.limits.lookup letter).getD Limit.unlimited

/-- How much a pipe can hold. -/
def pipeSize : Nat :=
  65536

/-- What has become of something that was to be written. -/
inductive Written where
  | done
  | failed
  /-- The system sends a signal to who writes. -/
  | refused (signal : Nat)

/-- Writes to an open file. -/
def emitTo (s : State) (number : Nat) (file : OpenFile) (bytes : ByteArray) : State × Written :=
  match file.channel with
  | .null => (s, .done)
  | .pipe old breaks =>
    if breaks && pipeSize ≤ old.size then (s, .refused 13)
    else (s.setFile number { file with channel := .pipe (old ++ bytes) breaks }, .done)
  | .file loc =>
    let old := s.contents file
    let offset := if file.append then old.size else file.offset
    let room := (s.limit 'f').soft - offset
    let fitting := if room < bytes.size then bytes.extract 0 room else bytes
    let s := if fitting.isEmpty then s
      else { s with tree := s.tree.put loc (.file (overwrite old offset fitting)) }
    (s.setFile number { file with offset := offset + fitting.size },
      if room < bytes.size then .refused 25 else .done)

/-- Writes to a stream. -/
def emit (s : State) (stream : Nat) (bytes : ByteArray) : State × Written :=
  match s.streams.lookup stream with
  | none => (s, .failed)
  | some number =>
    match s.files[number]? with
    | none => (s, .failed)
    | some file =>
      if !file.writable then (s, .failed)
      else if bytes.isEmpty then (s, .done)
      else s.emitTo number file bytes

/-- The next byte of a stream, which is gone then. -/
def readByte? (s : State) (stream : Nat) : Option UInt8 × State :=
  match s.streams.lookup stream with
  | none => (none, s)
  | some number =>
    match s.files[number]? with
    | none => (none, s)
    | some file =>
      if !file.readable then (none, s)
      else
        match (s.contents file)[file.offset]? with
        | some byte => (some byte, s.setFile number { file with offset := file.offset + 1 })
        | none => (none, s)

/-! ## Variables -/

def binding? (s : State) (name : String) : Option Variable :=
  s.bindings.lookup name

def value? (s : State) (name : String) : Option String :=
  (s.binding? name).bind Variable.value

def remove (s : State) (name : String) : State :=
  { s with
    bindings := s.bindings.filter fun e => e.1 != name
    tracked := if name == "PATH" then [] else s.tracked }

def put (s : State) (name : String) (v : Variable) : State :=
  let s := s.remove name
  { s with bindings := (name, v) :: s.bindings }

/-- Remembers a variable as it is, for when the function or command ends. -/
def save (s : State) (name : String) : State :=
  match s.saved with
  | frame :: frames =>
    if frame.bindings.any fun e => e.1 == name then s
    else
      let bindings := (name, s.binding? name) :: frame.bindings
      { s with saved := { frame with bindings } :: frames }
  | [] => s

/-- Remembers the options, as `save` does a variable. -/
def saveOptions (s : State) : State :=
  match s.saved with
  | frame :: frames =>
    { s with saved := { frame with options := some (frame.options.getD s.options) } :: frames }
  | [] => s

/-- Puts back what was remembered last. -/
def restore (s : State) : State :=
  match s.saved with
  | frame :: frames =>
    let s := { s with saved := frames, options := frame.options.getD s.options }
    frame.bindings.foldl (fun s (name, v) =>
      match v with
      | some v => s.put name v
      | none => s.remove name) s
  | [] => s

/-! ## Options -/

/-- The options with their letters; some have none. -/
def optionNames : List (String × Option Char) :=
  [("errexit", 'e'), ("noglob", 'f'), ("ignoreeof", 'I'), ("interactive", 'i'), ("monitor", 'm'),
    ("noexec", 'n'), ("stdin", 's'), ("xtrace", 'x'), ("verbose", 'v'), ("vi", 'V'),
    ("emacs", 'E'), ("noclobber", 'C'), ("allexport", 'a'), ("notify", 'b'), ("nounset", 'u'),
    ("privileged", 'p'), ("nolog", none), ("debug", none)]

def optionLetters : List Char :=
  optionNames.filterMap Prod.snd

def has (s : State) (option : Char) : Bool :=
  s.options.contains option

/-- Whether the shell outlives the failure of what it runs. Only the first one can be. -/
def isInteractive (s : State) : Bool :=
  s.isFirst && s.has 'i'

def setOption (s : State) (option : Char) (on : Bool) : State :=
  let others := s.options.filter (· != option)
  { s with options := if on then option :: others else others }

/-- The options that are set, as they stand in the parameter for them. -/
def optionText (s : State) : String :=
  String.ofList (optionLetters.reverse.filter s.has)

/-- The number of the process of the first shell. -/
def processId : Nat :=
  4242

/-! ## Files -/

def locate (s : State) (path : String) : Except SystemError Location :=
  s.tree.locate s.cwd (decode path)

end State

end FolderFlow.Shell
