import FolderFlow.Host.Process
import FolderFlow.Shell.State
import FolderFlow.Text.Hex

/-!
# Signals

Signals end a shell, unless it has been told what to do about them. Only the first shell of a script
can be reached by the others.
-/

namespace FolderFlow.Shell

namespace Signal

/-- The name of a signal. The number 0 stands for the end of a shell. -/
def name (n : Nat) : String :=
  if n = 0 then "EXIT"
  else if n = 16 then "16"
  else if n = 34 then "RTMIN"
  else if n = 64 then "RTMAX"
  else if n < 32 then
    ((ExitStatus.signalName? n).map fun s => String.ofList (s.toList.drop 3)).getD (toString n)
  else if n < 34 then toString n
  else if n < 50 then "RTMIN+" ++ toString (n - 34)
  else "RTMAX-" ++ toString (64 - n)

/-- One more than the last signal. -/
def bound : Nat :=
  65

/-- The signals that a process does not end by. -/
def harmless : List Nat :=
  [0, 17, 18, 19, 20, 21, 22, 23, 28]

def ofNumber? (text : String) : Option Nat :=
  if !text.isEmpty && text.toList.all Char.isDigit then
    let n := Text.valueOf 10 text.toList
    if n < bound then some n else none
  else none

/-- The signal of a number or a name, in either case, from some number on. -/
def ofText? (first : Nat) (text : String) : Option Nat :=
  match ofNumber? text with
  | some n => some n
  | none =>
    if !text.isEmpty && text.toList.all Char.isDigit then none
    else
      let upper := text.map Char.toUpper
      ((List.range bound).drop first).find? fun n => name n == upper

/-- What becomes of a process that gets a signal, by its traps. -/
inductive Outcome where
  | ends
  | interrupts
  | trapped
  | ignored

/-- An interactive shell is only interrupted by what comes from a keyboard. -/
def outcome (isInteractive : Bool) (ignored : List Nat) (traps : List (Nat × String)) (n : Nat) :
    Outcome :=
  match if n = 9 then none else traps.lookup n with
  | some action =>
    if action.isEmpty || n = 0 || ignored.contains n then .ignored else .trapped
  | none =>
    if n != 9 && ignored.contains n then .ignored
    else if isInteractive && n = 2 then .interrupts
    else if harmless.contains n || (isInteractive && (n = 3 || n = 15)) then .ignored
    else .ends

/-- Interrupts a shell that goes on with its input. -/
def interrupt : Exec Unit := do
  modify fun s => { s with status := 130, fatal := none }
  throw .interrupted

/-- Sends a signal to the shell that asks for it. -/
def sendSelf (n : Nat) : Exec Unit := do
  let s ← get
  match outcome s.isInteractive s.ignored s.traps n with
  | .ends => throw (.died n)
  | .interrupts => interrupt
  | .trapped => if s.isFirst then set { s with signals := s.signals ++ [n] }
  | .ignored => return ()

/-- Sends a signal to the first shell. If it ends that, the others go on to their ends. -/
def send (n : Nat) : Exec Unit := do
  let s ← get
  if s.isFirst then sendSelf n
  else
    match outcome (s.has 'i') s.ignored s.firstTraps n with
    | .ends | .interrupts => set { s with fatal := s.fatal <|> some n }
    | .trapped => set { s with signals := s.signals ++ [n] }
    | .ignored => return ()

end Signal

end FolderFlow.Shell
