import FolderFlow.Shell.Builtin.Basic
import FolderFlow.Shell.Runner

/-!
# Commands about jobs

They list the jobs and wait for them. A job that has ended is forgotten once it has been listed.
-/

namespace FolderFlow.Shell

/-! ## Naming jobs -/

/-- The job that a text names, which is a number or a sign for the last job or the one before. -/
def findJob (text : String) : Exec Job := do
  let jobs := (← get).jobs
  let missing : Exec Job := fault ("No such job: " ++ text)
  match text.toList with
  | ['%'] | ['%', '+'] | ['%', '%'] =>
    match jobs with
    | j :: _ => return j
    | [] => fault "No current job"
  | ['%', '-'] =>
    match jobs with
    | _ :: j :: _ => return j
    | _ => fault "No previous job"
  | '%' :: cs =>
    match if cs.all Char.isDigit then jobs.find? (·.number == Text.valueOf 10 cs) else none with
    | some j => return j
    | none => missing
  | _ => missing

def setJob (j : Job) : Exec Unit :=
  modify fun s => { s with jobs := s.jobs.map fun k => if k.number == j.number then j else k }

/-! ## Listing -/

/-- How a job stands, in the words of a list. -/
def stateText : Option ExitStatus → String
  | none => "Running"
  | some (.code 0) => "Done"
  | some (.code n) => "Done(" ++ toString n ++ ")"
  | some (.signal n) => endingText n

/-- How a job stands as far as the shell has been told. -/
def knownEnding (j : Job) : Option ExitStatus :=
  if j.reaped then j.ending else none

def listJob (withProcess : Bool) (j : Job) : Exec Unit := do
  let s ← get
  let place := s.jobs.findIdx fun k => k.number == j.number
  let sign := if place = 0 then "+ " else if place = 1 then "- " else "  "
  let process := if withProcess then toString j.process ++ " " else ""
  let text := "[" ++ toString j.number ++ "] " ++ sign ++ process ++ stateText (knownEnding j)
  writeLine (text ++ String.ofList (List.replicate (33 - text.length) ' '))

def forget (j : Job) : Exec Unit :=
  modify fun s => { s with jobs := Job.release j.number s.jobs }

/-- Lists jobs, or only their processes. -/
def jobsCommand : Builtin := fun args => do
  let (options, args) ← withOptions ['l', 'p'] [] args
  let jobs ← if args.isEmpty then pure (← get).jobs else args.mapM findJob
  for j in jobs do
    match options.getLast?.map Prod.fst with
    | some 'p' => writeLine (toString j.process)
    | option =>
      listJob (option == some 'l') j
      if (knownEnding j).isSome then forget j
  return 0

/-- Jobs cannot be moved between the background and the foreground. -/
def continueJob : Builtin := fun args => do
  match ← withoutOptions args with
  | [] =>
    let _ ← findJob "%%"
    fault "job (null) not created under job control"
  | text :: _ =>
    let _ ← findJob text
    fault ("job " ++ text ++ " not created under job control")

/-! ## Waiting -/

/-- The shell learns of the jobs that have ended up to a process. -/
def reapUntil (process : Nat) : Exec Unit :=
  modify fun s => { s with jobs := s.jobs.map fun j =>
    { j with reaped := j.reaped || (j.ending.isSome && j.process ≤ process) } }

/-- The status of a job, which is told if a signal has ended it. -/
def statusOfJob (j : Job) : Exec Nat := do
  match j.ending with
  | none => throw .endless
  | some ending =>
    if !j.reaped then reapUntil j.process
    setJob j.markWaited
    match ending, j.reaped with
    | .signal n, false => tellEnd n
    | ending, _ => return Job.statusOf ending

def wait : Builtin := fun args => do
  let args ← withoutOptions args
  if args.isEmpty then
    let s ← get
    if s.jobs.any (·.ending.isNone) then throw .endless
    set { s with jobs := s.jobs.map Job.markWaited }
    return 0
  else
    let mut status := 127
    for arg in args do
      match arg.toList with
      | '%' :: _ => status ← statusOfJob (← findJob arg)
      | _ =>
        let process ← number arg
        match (← get).jobs.find? (·.process == process) with
        | some j => status ← statusOfJob j
        | none => pure ()
    return status

end FolderFlow.Shell
