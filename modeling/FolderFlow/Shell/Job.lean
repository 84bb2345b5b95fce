import FolderFlow.Host.Process

/-!
# Jobs

The commands that a shell has started without waiting for them. A job has a number as long as it is
in the table, and the lowest number that is free is given to the next one.
-/

namespace FolderFlow.Shell

structure Job where
  number : Nat
  process : Nat
  /-- How it has ended, if it has. -/
  ending : Option ExitStatus
  /-- Whether the shell has been told that it has ended. -/
  reaped : Bool := false
  /-- Whether the script has waited for it. -/
  waited : Bool := false

namespace Job

/-- Whether nothing needs the number of a job any longer. -/
def isSpent (j : Job) : Bool :=
  j.ending.isSome && j.waited

/-- A job that the script has waited for. -/
def markWaited (j : Job) : Job :=
  { j with reaped := true, waited := true }

/-- The status that stands for an end. -/
def statusOf : ExitStatus → Nat
  | .code n => n
  | .signal n => 128 + n

/-- The lowest number that is free or that of a job that is spent. -/
def freeNumber (jobs : List Job) : Nat :=
  let free := (List.range (jobs.length + 1)).map (· + 1) |>.find? fun n =>
    jobs.all fun j => j.number != n || j.isSpent
  free.getD (jobs.length + 1)

/-- The jobs without the one whose number is given away. -/
def release (number : Nat) (jobs : List Job) : List Job :=
  jobs.filter fun j => j.number != number

end Job

end FolderFlow.Shell
