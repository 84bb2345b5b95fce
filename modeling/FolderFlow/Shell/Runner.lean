import FolderFlow.Shell.Effect
import FolderFlow.Shell.Field

/-!
# Shells

The parts of a shell that lead back to it, and the shells that it starts: those that run aside with
what they have got from it, and those that have nothing of it but the system.
-/

namespace FolderFlow.Shell

/-- What a word is read for. -/
structure Purpose where
  /-- It may become several fields. -/
  fields : Bool
  /-- It stands in for a parameter and is cut where it is not quoted. -/
  standsIn : Bool := false
  /-- It is the value of a variable, which may be a list of paths between colons. -/
  assigned : Bool := false

/-- Where a command stands. -/
structure Place where
  /-- It is asked for its status, and its failure does not count. -/
  tested : Bool := false
  /-- Nothing is left to do behind it, so that the shell may become what it runs. -/
  last : Bool := false

/-- The place of a command behind which there are others, at the end of one at the given place. -/
def Place.inner (p : Place) : Place :=
  { p with last := false }

/-- The place of a command whose status decides what comes next. -/
def Place.test : Place where
  tested := true

/-- The parts of a shell that lead back to it. -/
structure Runner where
  command : Place → Command → Exec Unit
  /-- Runs the commands of a text. -/
  text : Place → String → Exec Unit
  word : Purpose → Word → Exec (List Run)
  /-- Runs another shell with a name and arguments, and gives its status or the signal that has
  ended it. -/
  program : (name : String) → (args : List String) → Exec (Except Nat Nat)

/-! ## Shells within shells -/

/-- What is told of a process that a signal has ended. -/
def endingText (signal : Nat) : String :=
  match signal with
  | 1 => "Hangup"
  | 2 | 13 => ""
  | 3 => "Quit"
  | 4 => "Illegal instruction"
  | 5 => "Trace/breakpoint trap"
  | 6 => "Aborted"
  | 7 => "Bus error"
  | 8 => "Floating point exception"
  | 9 => "Killed"
  | 10 => "User defined signal 1"
  | 11 => "Segmentation fault"
  | 12 => "User defined signal 2"
  | 14 => "Alarm clock"
  | 15 => "Terminated"
  | 16 => "Stack fault"
  | 24 => "CPU time limit exceeded"
  | 25 => "File size limit exceeded"
  | 26 => "Virtual timer expired"
  | 27 => "Profiling timer expired"
  | 29 => "I/O possible"
  | 30 => "Power failure"
  | 31 => "Bad system call"
  | n => if n < 34 then "Unknown signal " ++ toString n
    else "Real-time signal " ++ toString (n - 34)

/-- Tells how a process was ended, and gives the status for that. -/
def tellEnd (signal : Nat) : Exec Nat := do
  if endingText signal != "" then writeError (endingText signal ++ "\n")
  return 128 + signal

/-- A shell that another one starts: traps that do more than ignore a signal are not handed down. -/
def State.child (s : State) : State :=
  { s with
    isFirst := false
    firstTraps := if s.isFirst then s.traps else s.firstTraps
    traps := s.traps.filter fun t => t.2.isEmpty
    jobs := []
    trapStatus := none }

/-- What is left in a shell of one that it has started. -/
def State.adopt (s t : State) : State :=
  { s with
    tree := t.tree
    files := t.files
    documents := t.documents
    signals := t.signals
    fatal := t.fatal
    jobCount := t.jobCount }

namespace Runner

variable (r : Runner)

/-- Runs what is to be done when a shell exits. -/
def exitTrap : Exec Unit := do
  let s ← get
  match s.traps.lookup 0 with
  | none => return ()
  | some action =>
    set { s with
      traps := s.traps.filter (·.1 != 0)
      jump := none, trapStatus := some s.status, speaker := none }
    r.text {} action
    setStatus s.status

/-- Runs what ends the shell if it stops, but not the script. -/
def stopping (body : Exec Unit) : Exec Unit := do
  try
    body
  catch
    | .died signal => throw (.died signal)
    | .endless => throw .endless
    | _ => pure ()

/-- Runs to the end of a shell. -/
def toEnd (body : Exec Unit) : Exec Unit := do
  stopping body
  stopping r.exitTrap

/-- Runs a shell that has nothing of this one but the system, and gives its status or the signal
that has ended it. -/
def inProcess (start : State → State) (body : Exec Unit) : Exec (Except Nat Nat) := do
  let s ← get
  let (result, t) := (r.toEnd body).run.run (start s)
  set { s.adopt t with signals := s.signals, fatal := s.fatal }
  match result with
  | .error (.died signal) => return .error signal
  | .error .endless => throw .endless
  | _ => return .ok (t.status % 256)

/-- Makes room for a process among the jobs, as if it were one of them. -/
def State.claim (s : State) : State :=
  { s with jobs := Job.release (Job.freeNumber s.jobs) s.jobs }

/-- The shell learns of the jobs that have ended while it has waited for a process. -/
def State.reap (s : State) : State :=
  { s with jobs := s.jobs.map fun j => { j with reaped := j.ending.isSome } }

/-- Runs in a shell of its own to its end, and tells how it has ended unless it does not end. -/
def endingOf (body : Exec Unit) : Exec (Option ExitStatus) := do
  let s ← get
  let (result, t) := (r.toEnd body).run.run s.child
  set (s.adopt t)
  return match result with
    | .error (.died signal) => some (.signal signal)
    | .error .endless => none
    | _ => some (.code (t.status % 256))

/-- Runs in a shell of its own, while this one goes on. -/
def aside (body : Exec Unit) : Exec Nat := do
  modify State.claim
  let ending ← r.endingOf body
  modify State.reap
  match ending with
  | some (.signal signal) => tellEnd signal
  | some (.code status) => return status
  | none => throw .endless

/-- Ends the first shell if a signal has done so. -/
def endFirst : Exec Unit := do
  let s ← get
  match s.isFirst, s.fatal with
  | true, some signal =>
    if s.isInteractive && signal == 2 then Signal.interrupt else throw (.died signal)
  | _, _ => return ()

/-- Runs in a shell of its own and gives the status of that shell. -/
def inChild (body : Exec Unit) : Exec Nat := do
  let status ← r.aside body
  endFirst
  return status

end Runner

end FolderFlow.Shell
