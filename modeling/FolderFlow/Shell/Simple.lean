import FolderFlow.Shell.Builtin.Running

/-!
# Simple commands

A command with its arguments. It is a function of the script, a command of the shell or a program,
and may stand behind assignments that only last as long as it runs.
-/

namespace FolderFlow.Shell

namespace Runner

variable (r : Runner)

/-- The fields that a command begins with, and the words that are still to be read. -/
structure Head where
  fields : List String
  words : List Word
  /-- The fields before them, which name the command that names this one. -/
  skipped : List String := []

/-- Whether the command was named by itself, and not by another command. -/
def Head.isDirect (h : Head) : Bool :=
  h.skipped.isEmpty

/-- The fields of the first word that has any, and the words behind it. -/
def firstFields : List Word → Exec (List String × List Word)
  | [] => return ([], [])
  | w :: ws => do
    match ← r.fieldsOf w with
    | [] => firstFields ws
    | fields => return (fields, ws)

/-- A head that has at least as many fields as are asked for, if there are as many. -/
def fill (count : Nat) (h : Head) : Exec Head := do
  if count ≤ h.fields.length then return h
  else
    let (fields, words) ← r.firstFields h.words
    return { h with fields := h.fields ++ fields, words }

/-- Where in a head the command is that another one names, if one is named: behind the other one
and behind options that have been passed over. -/
def named? : (fuel : Nat) → (start : Nat) → Head → Exec (Option Nat × Head)
  | 0, _, h => return (none, h)
  | fuel + 1, start, h => do
    let h ← r.fill (start + 1) h
    match h.fields[start]?.map String.toList with
    | none => return (none, h)
    | some ['-', '-'] =>
      let h ← r.fill (start + 2) h
      return (if start + 1 < h.fields.length then some (start + 1) else none, h)
    | some ('-' :: c :: cs) =>
      if (c :: cs).all (· == 'p') then named? fuel (start + 1) h else return (none, h)
    | some _ => return (some start, h)

/-- Passes over the command that only names another one. -/
def resolve : (fuel : Nat) → Head → Exec Head
  | 0, h => return h
  | fuel + 1, h => do
    if h.fields.head? != some "command" || (← get).functions.any (·.1 == "command") then return h
    match ← r.named? fuel 1 h with
    | (none, h) => return h
    | (some n, h) =>
      resolve fuel { h with
        fields := h.fields.drop n, skipped := h.skipped ++ h.fields.take n }

/-- The fields of an argument. The value of an assignment is not cut. -/
def argument (assigns : Bool) (w : Word) : Exec (List String) := do
  match if assigns then Grammar.assignment? w else none with
  | some (name, value) => return [name ++ "=" ++ (← r.valueOf value)]
  | none => r.fieldsOf w

/-- A command that is ready to be run. -/
structure Call where
  name : String
  args : List String
  isDirect : Bool
  place : Place

/-- Runs a command of the shell. Faults are survived unless they are fatal. -/
def runBuiltin (call : Call) (fatal : Bool) (run : Builtin) : Exec Unit := do
  let speaker := (← get).speaker
  modify fun s => { s with speaker := some call.name, outputFailed := false }
  let stop ← try
      let status ← run call.args
      setStatus status
      pure none
    catch stop => pure (some stop)
  if (← get).outputFailed then
    complain (call.name ++ ": I/O error")
    modify fun s => { s with status := s.status ||| 1 }
  modify fun s => { s with speaker, outputFailed := false }
  match stop with
  | none => return ()
  | some .fault => if fatal then throw .fault
  | some stop => throw stop

/-- How many functions may call one another. -/
def callLimit : Nat :=
  1000

/-- Runs the body of a function with its own arguments and variables. -/
def callFunction (call : Call) (body : Command) : Exec Unit := do
  let s ← get
  if callLimit ≤ s.callDepth then
    fault ("Maximum function recursion depth (" ++ toString callLimit ++ ") reached")
  let back (t : State) : State :=
    { t with
      args := s.args
      callDepth := s.callDepth
      loopDepth := s.loopDepth
      optionIndex := s.optionIndex
      optionOffset := s.optionOffset
      jump := if t.jump == some .returnCaller then none else t.jump }
  set { s with
    args := call.args, callDepth := s.callDepth + 1
    loopDepth := 0, optionIndex := 1, optionOffset := 0 }
  try
    r.command call.place.inner body
    modify back
  catch stop =>
    modify back
    throw stop

/-- Whether the shell has something to do when it ends or gets a signal. -/
def hasTraps : Exec Bool := do
  return (← get).traps.any fun t => !t.2.isEmpty

def runProgram (call : Call) : Exec Unit := do
  match findProgram (← get) call.name with
  | .shell path =>
    track call.name path
    modify State.claim
    let ending ← r.program call.name call.args
    modify State.reap
    match ending with
    | .ok status => setStatus status
    | .error signal =>
      if call.place.last && !(← hasTraps) then throw (.died signal)
      setStatus (← tellEnd signal)
  | .file _ =>
    complain (call.name ++ ": Permission denied")
    setStatus 126
  | .refused =>
    complain (call.name ++ ": Permission denied")
    setStatus 127
  | .missing reason =>
    complain (call.name ++ ": " ++ reason)
    setStatus 127

def call (c : Call) : Exec Unit := do
  let isSpecial := specialCommands.contains c.name
  let s ← get
  match if c.isDirect && !isSpecial then s.functions.lookup c.name else none with
  | some body => r.callFunction c body
  | none =>
    match r.builtin? c.place c.name with
    | some run => runBuiltin c (c.isDirect && isSpecial) run
    | none => r.runProgram c

/-- Shows a command before it is run, where the script asks for that, on the stream of complaints
that there was before the redirections of the command. -/
def trace (streams : List (Nat × Nat)) (fields : List String) : Exec Unit := do
  let s ← get
  if s.has 'x' then
    let sign ← r.prompt "PS4"
    let before := if (streams.lookup 2).isSome then streams else s.streams
    modify fun t => { t with streams := before }
    writeError (sign ++ " ".intercalate fields ++ "\n")
    modify fun t => { t with streams := s.streams }

/-- Puts back what was remembered last, where a name that is none cannot be unset. -/
def putBack : Exec Unit := do
  let s ← get
  let frame := s.saved.headD {}
  let (bindings, others) := frame.bindings.span fun e => e.2.isSome || isName e.1.toList
  set { s with saved := { frame with bindings } :: s.saved.drop 1 }
  modify State.restore
  match others with
  | (name, _) :: _ => fault (name ++ ": bad variable name")
  | [] => return ()

/-- Runs with a frame for variables that are put back afterwards. -/
def framed (on : Bool) (body : Exec Unit) : Exec Unit := do
  if !on then body
  else
    modify fun s => { s with saved := {} :: s.saved }
    try
      body
    catch stop =>
      modify State.restore
      throw stop
    putBack

/-- Assigns what stands before a command; gives how it is shown. -/
def assignBefore (keeps exported : Bool) (name : String) (value : Word) : Exec String := do
  let text ← r.valueOf value
  if !keeps then modify fun s => s.save name
  assign name text
  if !keeps || exported then
    modify fun s => s.put name { (s.binding? name).getD ⟨some text, true, false⟩ with
      exported := true }
  return name ++ "=" ++ text

def simple (place : Place) (line : Nat) (assignments : List (String × Word)) (words : List Word)
    (redirects : List Redirect) : Exec Unit := do
  modify fun s => { s with line, outputStatus := 0 }
  let (fields, words) ← r.firstFields words
  let head ← r.resolve (words.length + fields.length + 1) { fields, words }
  let name := head.fields.headD ""
  let assigns := takesAssignments name && !(← get).functions.any (·.1 == name)
  let rest ← head.words.mapM (r.argument assigns)
  let args := head.fields.drop 1 ++ rest.flatten
  let isSpecial := head.isDirect && specialCommands.contains name
  let keeps := head.fields.isEmpty || isSpecial
  let before := (← get).streams
  let run : Exec Unit := do
    let rs ← redirects.mapM r.prepare
    if ← r.redirectAll true rs then
      let shown ← assignments.mapM fun a =>
        r.assignBefore keeps (name == "exec" && !args.isEmpty) a.1 a.2
      r.trace before (shown ++ head.skipped ++ head.fields.take 1 ++ args)
      if head.fields.isEmpty then setStatus (← get).outputStatus
      else r.call ⟨name, args, head.isDirect, place⟩
    else if isSpecial then throw .fault
  framed (!keeps) (if name == "exec" then run else restoring run)

end Runner

end FolderFlow.Shell
