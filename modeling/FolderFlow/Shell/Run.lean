import FolderFlow.Shell.Simple

/-!
# Running commands

What commands made of commands do. A shell is given as the runner that is one level shallower, to
which they lead back.
-/

namespace FolderFlow.Shell

namespace Runner

variable (r : Runner)

def optional (place : Place) : Option Command → Exec Unit
  | some c => r.command place c
  | none => setStatus 0

/-- What a jump makes of the loop that it meets. -/
inductive After where
  | goesOn
  | nextRound
  | ends
  | returns
  deriving DecidableEq

def afterRound : Exec After := do
  match (← get).jump with
  | none => return .goesOn
  | some (.breakLoops n) =>
    modify fun s => { s with jump := if n ≤ 1 then none else some (.breakLoops (n - 1)) }
    return .ends
  | some (.continueLoop n) =>
    modify fun s => { s with jump := if n ≤ 1 then none else some (.continueLoop (n - 1)) }
    return if n ≤ 1 then .nextRound else .ends
  | some .returnCaller => return .returns

/-- How many rounds of a loop in a job show that it does not end. -/
def jobRounds : Nat :=
  10000

/-- Runs a loop that has come to a status so far. -/
def rounds (place : Place) (untilTrue : Bool) (test body : Option Command) :
    (limit : Nat) → (status : Nat) → Exec Nat
  | 0, _ => throw .endless
  | limit + 1, status => do
    r.optional .test test
    let answer := (← get).status
    match ← afterRound with
    | .nextRound => rounds place untilTrue test body limit status
    | .ends => return status
    | .returns => return answer
    | .goesOn =>
      if (answer == 0) == untilTrue then return status
      r.optional place body
      let status := (← get).status
      match ← afterRound with
      | .ends | .returns => return status
      | _ => rounds place untilTrue test body limit status

def eachField (place : Place) (name : String) (body : Option Command) :
    List String → (status : Nat) → Exec Nat
  | [], status => return status
  | field :: fields, _ => do
    assign name field
    r.optional place body
    let status := (← get).status
    match ← afterRound with
    | .ends | .returns => return status
    | _ => eachField place name body fields status

/-- Runs in a loop, which ends with the status that is given. -/
def inLoop (body : Exec Nat) : Exec Unit := do
  modify fun s => { s with loopDepth := s.loopDepth + 1 }
  let status ← body
  modify fun s => { s with loopDepth := s.loopDepth - 1, status }

/-- Whether one of the patterns matches. -/
def anyMatches (text : String) : List Word → Exec Bool
  | [] => return false
  | w :: ws => do
    if (← r.patternOf w).isMatch text.toList then return true else anyMatches text ws

def choose (place : Place) (text : String) : List (List Word × Option Command) → Exec Unit
  | [] => setStatus 0
  | (patterns, body) :: cases => do
    if ← r.anyMatches text patterns then r.optional place body else choose place text cases

/-- Runs stages one after the other, each of which reads what the one before it has written. -/
def stages (place : Place) (input : Option Nat) : List Command → Exec Nat
  | [] => return 0
  | c :: cs => do
    let connect (s : State) : State := (input.map (s.setStream 0)).getD s
    if cs.isEmpty then
      r.aside do
        modify connect
        r.command { place with last := true } c
    else
      let (s, number) := (← get).openNew { channel := .pipe .empty true }
      set s
      let _ ← r.aside do
        modify fun s => (connect s).setStream 1 number
        r.command { place with last := true } c
      stages place (some number) cs

def pipeline (place : Place) (cs : List Command) : Exec Unit := do
  let status ← r.stages place none cs
  endFirst
  setStatus status

/-- Runs a job, which has ended before the next command begins unless it does not end. Its input is
empty. -/
def job (body : Command) : Exec Unit := do
  modify State.claim
  let ending ← r.endingOf do
    let (s, number) := (← get).openNew { channel := .null }
    set { s.setStream 0 number with inJob := true }
    r.command { last := true } body
  endFirst
  let s ← get
  let process := State.processId + s.jobCount + 1
  set { s with
    jobCount := s.jobCount + 1
    jobs := { number := Job.freeNumber s.jobs, process, ending } :: s.jobs
    lastJob := some process
    status := 0 }

/-- Runs a list in a shell of its own, or in this one if there is nothing left to do in it. -/
def subshell (place : Place) (body : Option Command) (redirects : List Redirect) : Exec Unit := do
  let rs ← redirects.mapM r.prepare
  let run (place : Place) : Exec Unit := do
    if ← r.redirectAll false rs then r.optional place body
  if place.last && !(← hasTraps) then run place
  else setStatus (← r.inChild (run { place with last := true }))

/-- Whether the failure of a command counts by itself, and not only in those it is made of. -/
def Command.counts : Command → Bool
  | .simple .. | .pipeline _ | .background .. | .subshell .. => true
  | _ => false

def setLine (line : Nat) : Exec Unit :=
  modify fun s => { s with line }

/-- What a command does. Loops have a limit to their rounds. -/
def act (limit : Nat) (place : Place) : Command → Exec Unit
  | .simple line assignments words redirects => r.simple place line assignments words redirects
  | .pipeline cs => r.pipeline place cs
  | .background line body => do
    setLine line
    r.job body
  | .not body => do
    r.command .test body
    modify fun s =>
      { s with status := if s.jump.isSome then s.status else if s.status = 0 then 1 else 0 }
  | .and first second => do
    r.command .test first
    let s ← get
    if s.jump.isNone && s.status == 0 then r.command place second
  | .or first second => do
    r.command .test first
    let s ← get
    if s.jump.isNone && s.status != 0 then r.command place second
  | .sequence first second => do
    r.command place.inner first
    if (← get).jump.isNone then r.command place second
  | .subshell line body redirects => do
    setLine line
    r.subshell place body redirects
  | .redirected line body redirects => do
    setLine line
    r.withRedirects redirects (r.command place.inner body) do
      if !place.tested && (← get).has 'e' then throw .exit
  | .conditional test body otherwise => do
    r.optional .test test
    let s ← get
    if s.jump.isNone then r.optional place (if s.status == 0 then body else otherwise)
  | .loop untilTrue test body => do
    let limit := if (← get).inJob then min limit jobRounds else limit
    inLoop (r.rounds place untilTrue test body limit 0)
  | .each line name words body => do
    setLine line
    let fields ← r.fieldsOfAll words
    inLoop (r.eachField place.inner name body fields 0)
  | .choice line subject cases => do
    setLine line
    r.choose place (← r.textOf subject) cases
  | .define _ name body =>
    modify fun s =>
      { s with functions := (name, body) :: s.functions.filter (·.1 != name), status := 0 }

/-- Runs a command and, where failures end the shell, ends it. -/
def runCommand (limit : Nat) (place : Place) (c : Command) : Exec Unit := do
  if (← get).has 'n' then return ()
  r.runTraps
  r.act limit place c
  r.runTraps
  let s ← get
  if s.has 'e' && !place.tested && Command.counts c && s.status != 0 then throw .exit

end Runner

end FolderFlow.Shell
