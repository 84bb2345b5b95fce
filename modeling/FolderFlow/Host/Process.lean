/-!
# Running programs

What is asked for when a program is started, and what is known of it when it has ended.
-/

namespace FolderFlow

/-- A program with its arguments and, where it is to run elsewhere, its directory. It reads nothing,
and what it writes to its standard output is lost. -/
structure Launch where
  program : String
  args : List String
  dir : Option String
  deriving DecidableEq, Repr

/-- How a program ended: by itself, or by a signal. -/
inductive ExitStatus where
  | code (n : Nat)
  | signal (n : Nat)
  deriving DecidableEq, Repr

namespace ExitStatus

def isSuccess (s : ExitStatus) : Bool :=
  s == code 0

/-- The signals from 1 on. -/
def signalNames : List String :=
  ["SIGHUP", "SIGINT", "SIGQUIT", "SIGILL", "SIGTRAP", "SIGABRT", "SIGBUS", "SIGFPE", "SIGKILL",
    "SIGUSR1", "SIGSEGV", "SIGUSR2", "SIGPIPE", "SIGALRM", "SIGTERM", "SIGSTKFLT", "SIGCHLD",
    "SIGCONT", "SIGSTOP", "SIGTSTP", "SIGTTIN", "SIGTTOU", "SIGURG", "SIGXCPU", "SIGXFSZ",
    "SIGVTALRM", "SIGPROF", "SIGWINCH", "SIGIO", "SIGPWR", "SIGSYS"]

def signalName? (n : Nat) : Option String :=
  if n = 0 then none else signalNames[n - 1]?

def describe : ExitStatus → String
  | code n => "exit status: " ++ toString n
  | signal n =>
    match signalName? n with
    | some name => "signal: " ++ toString n ++ " (" ++ name ++ ")"
    | none => "signal: " ++ toString n

end ExitStatus

/-- The end of a program, with all that it wrote to its standard error. -/
structure Exit where
  status : ExitStatus
  stderr : ByteArray

end FolderFlow
