import FolderFlow.Shell.Signal

/-!
# Effects

What commands do to the shell that runs them: they write, they complain and they change variables.
-/

namespace FolderFlow.Shell

/-! ## Writing -/

/-- Writes to a stream; tells whether it can be written to. -/
def writeTo (stream : Nat) (text : String) : Exec Bool := do
  let (s, written) := (← get).emit stream (toBytes text)
  set s
  match written with
  | .done => return true
  | .failed => return false
  | .refused signal =>
    Signal.sendSelf signal
    return false

/-- Writes to the output. A failure is noticed when the command ends. -/
def write (text : String) : Exec Unit := do
  let written ← writeTo 1 text
  modify fun s => { s with outputFailed := s.outputFailed || !written }

def writeLine (text : String) : Exec Unit :=
  write (text ++ "\n")

/-- Writes to the stream of complaints as it is. -/
def writeError (text : String) : Exec Unit := do
  let _ ← writeTo 2 text

/-! ## Complaints -/

/-- A complaint with the name of the shell, the line and the command. -/
def complain (text : String) : Exec Unit := do
  let s ← get
  let speaker := (s.speaker.map (· ++ ": ")).getD ""
  writeError (s.name ++ ": " ++ toString s.line ++ ": " ++ speaker ++ text ++ "\n")

def setStatus (status : Nat) : Exec Unit :=
  modify fun s => { s with status }

/-- A complaint that ends the shell, or the command if it may go wrong. -/
def fault {α : Type} (text : String) : Exec α := do
  setStatus 2
  complain text
  throw .fault

/-! ## Variables -/

/-- The variable as it is changed, with what it keeps from before. -/
def change (name : String) (value : Option String) : Exec Unit := do
  let s ← get
  let v := (s.binding? name).getD ⟨none, false, false⟩
  if v.readOnly then fault (name ++ ": is read only")
  set (s.put name { v with value, exported := v.exported || s.has 'a' })

/-- Gives a variable a value. Where the options are read from can be set in this way. -/
def assign (name value : String) : Exec Unit := do
  change name (some value)
  if name == "OPTIND" then
    modify fun s => { s with optionIndex := (value.toNat?).getD 1, optionOffset := 0 }

def checkName (name : String) : Exec Unit := do
  if !isName name.toList then fault (name ++ ": bad variable name")

/-- The name in a word, which ends before an equals sign. -/
def nameIn (word : String) : Exec String := do
  let name := String.ofList (word.toList.takeWhile (· != '='))
  checkName name
  return name

/-- Gives the variable that a word names a value. -/
def assignChecked (word value : String) : Exec Unit := do
  assign (← nameIn word) value

end FolderFlow.Shell
