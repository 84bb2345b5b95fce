import FolderFlow.Shell.Builtin.Jobs

/-!
# Signals

Signals end the first shell of a script, unless it has been told what to do about them. No other
process of a script can be reached while it runs.
-/

namespace FolderFlow.Shell

open Signal

/-- Sends a signal to a job, which is there until the shell has been told of its end. -/
def endJob (signal : Nat) (process : Int) : Exec Bool := do
  let s ← get
  match s.jobs.find? fun j => (j.process : Int) == process && !j.reaped with
  | none => return false
  | some j =>
    if j.ending.isNone && !harmless.contains signal then
      setJob { j with ending := some (.signal signal) }
    return true

/-- Sends a signal to each process; gives whether none was missing. -/
def sendAll (signal : Nat) : List String → Exec Bool
  | [] => return true
  | target :: targets => do
    let process ← match target.toList with
      | '%' :: _ => pure (-((← findJob target).process : Int))
      | '-' :: digits => pure (-((← number (String.ofList digits)) : Int))
      | _ => pure ((← number target : Nat) : Int)
    let found ←
      if process == State.processId then
        send signal
        pure true
      else
        let isJob ← endJob signal process
        if !isJob then complain "No such process\n"
        pure isJob
    return (← sendAll signal targets) && found

def killUsage {α : Type} : Exec α :=
  fault ("Usage: kill [-s sigspec | -signum | -sigspec] [pid | job]... or\n" ++
    "kill -l [exitstatus]")

def listSignals (args : List String) : Exec Nat := do
  match args with
  | [] =>
    writeLine "0"
    for n in (List.range bound).drop 1 do
      writeLine (name n)
  | text :: _ =>
    let n ← number text
    let n := if 128 < n then n - 128 else n
    if 0 < n && n < bound then writeLine (name n)
    else fault ("invalid signal number or exit status: " ++ text)
  return 0

/-- The signal that an option names, which replaces those named before it. -/
def namedSignal (before : Option Nat) (option : Char × String) : Exec (Option Nat) := do
  if option.1 != 's' then return before
  match ofText? 1 option.2 with
  | some n => return some n
  | none => fault ("invalid signal number or name: " ++ option.2)

def kill : Builtin := fun args => do
  let run (signal : Nat) (targets : List String) : Exec Nat := do
    if targets.isEmpty then killUsage
    return if ← sendAll signal targets then 0 else 1
  match args with
  | [] => killUsage
  | first :: rest =>
    match first.toList with
    | '-' :: spec =>
      match ofText? 1 (String.ofList spec) with
      | some signal => run signal rest
      | none =>
        let (options, targets) ← withOptions ['l'] ['s'] args
        let signal ← options.foldlM namedSignal none
        match signal, options.any (·.1 == 'l') with
        | none, true => listSignals targets
        | signal, false => run (signal.getD 15) targets
        | some _, true => killUsage
    | _ => run 15 args

/-! ## Traps -/

def listTraps : Exec Unit := do
  let s ← get
  for n in List.range bound do
    match s.traps.lookup n with
    | some action => writeLine ("trap -- " ++ singleQuoted action ++ " " ++ name n)
    | none => pure ()

def setTrap (n : Nat) (action : Option String) : Exec Unit :=
  modify fun s =>
    let others := s.traps.filter fun t => t.1 != n
    { s with traps := match action with
      | some action => (n, action) :: others
      | none => others }

def setTraps (action : Option String) : List String → Exec Nat
  | [] => return 0
  | text :: rest => do
    match ofText? 0 text with
    | some n =>
      setTrap n action
      setTraps action rest
    | none =>
      writeError ("trap: " ++ text ++ ": bad trap\n")
      return 1

/-- Tells what is to be done when a signal comes. -/
def trap : Builtin := fun args => do
  match ← withoutOptions args with
  | [] =>
    listTraps
    return 0
  | [signal] => setTraps none [signal]
  | action :: signals =>
    if (ofNumber? action).isSome then setTraps none (action :: signals)
    else setTraps (if action == "-" then none else some action) signals

end FolderFlow.Shell
