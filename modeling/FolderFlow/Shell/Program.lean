import FolderFlow.Shell.Run

/-!
# Shells as programs

A shell is started with options and a script: a text among its arguments, a file, or else its input.
It ends when the script ends, or before.
-/

namespace FolderFlow.Shell

/-! ## Beginning -/

/-- The variables of a new shell: those that it is handed, and some of its own. -/
def firstVariables (s : State) : List (String × Variable) :=
  let handed := s.bindings.filterMap fun (name, v) =>
    if v.exported && v.value.isSome then some (name, { v with readOnly := false }) else none
  let own := [("IFS", standardSeparators), ("OPTIND", "1")]
  let defaults := [("PPID", "1"), ("PS1", "# "), ("PS2", "> "), ("PS4", "+ ")]
  let set (vs : List (String × Variable)) (name : String) (v : Variable) :=
    (name, v) :: vs.filter fun e => e.1 != name
  let vs := defaults.foldl (fun vs e =>
    if vs.any (·.1 == e.1) then vs else set vs e.1 ⟨some e.2, false, false⟩) handed
  let vs := own.foldl (fun vs e => set vs e.1 ⟨some e.2, false, false⟩) vs
  set vs "PWD" ⟨some (encode (FileTree.pathOf s.cwd)), true, false⟩

/-- A new shell in the place of one. It keeps the open files, and ignores the signals that are
ignored. -/
def State.begin (name : String) (s : State) : State where
  tree := s.tree
  files := s.files
  documents := s.documents
  jobCount := s.jobCount
  cwd := s.cwd
  streams := s.streams
  bindings := firstVariables s
  ignored := s.ignored ++ (s.traps.filter fun t => t.2.isEmpty && t.1 != 0).map Prod.fst
  mask := s.mask
  limits := s.limits
  name := name
  args := []

/-- Sets the options that a shell is started with. Gives whether the script is an argument, and the
arguments. -/
def startOptions : (fuel : Nat) → List String → Exec (Bool × List String)
  | 0, args => return (false, args)
  | _, [] => return (false, [])
  | fuel + 1, arg :: rest => do
    match arg.toList with
    | ['-'] | ['-', '-'] => return (false, rest)
    | sign :: letters =>
      if sign == '-' || sign == '+' then
        let rest ← setLetters (sign == '-') rest (letters.filter fun c => c != 'c' && c != 'l')
        let (isText, args) ← startOptions fuel rest
        return (isText || letters.contains 'c', args)
      else return (false, arg :: rest)
    | [] => return (false, arg :: rest)

/-! ## Scripts -/

namespace Runner

variable (r : Runner)

/-- Runs what can be read from the input. -/
def runInput : Exec Unit := do
  let s ← get
  match s.streams.lookup 0, s.fileOf? 0 with
  | some number, some file =>
    let bytes := s.contents file
    set (s.setFile number { file with offset := bytes.size })
    r.runText {} .script (ofBytes (bytes.extract file.offset bytes.size))
  | _, _ => r.runText {} .script ""

/-- Runs a script. An interactive shell goes on with something else if the script fails. -/
def orElse (script rest : Exec Unit) : Exec Unit := do
  try
    script
  catch stop =>
    let s ← get
    if !s.isInteractive || (stop != .fault && stop != .interrupted) then throw stop
    if stop == .interrupted then writeError "\n"
    modify fun s =>
      { s with jump := none, loopDepth := 0, callDepth := 0, speaker := none, trapStatus := none }
    rest

/-- Runs a script that is read piece by piece. What has been read of it is lost when it fails. -/
def orEnd (script : Exec Unit) : Exec Unit :=
  orElse script (r.runText {} .script "")

/-- Whether words that a shell is started with say that there are to be no jobs. -/
def forbidsJobs (words : List String) : Bool :=
  words.any fun w => w == "monitor" || (w.toList.head? == some '+' && w.toList.contains 'm')

/-- What a shell does from its beginning. -/
def shell (args : List String) : Exec Unit := do
  let (isText, rest) ← startOptions (args.length + 1) args
  let words := args.take (args.length - rest.length)
  let begin (change : State → State) : Exec Unit := do
    modify change
    let s ← get
    if s.has 'i' && !forbidsJobs words then set (s.setOption 'm' true)
    refuseMonitor
  match isText, rest with
  | true, [] => fault "-c requires an argument"
  | true, text :: args =>
    begin fun s => { s with name := args.headD s.name, args := args.drop 1 }
    orElse
      (do
        r.text {} text
        if (← get).has 's' then r.runInput)
      (r.orEnd r.runInput)
  | false, [] =>
    begin fun s => s.setOption 's' true
    r.orEnd r.runInput
  | false, path :: args =>
    let s ← get
    if s.has 's' then
      begin fun s => { s with args := rest }
      r.orEnd r.runInput
    else
      match openInput s path with
      | .error e => fault ("cannot open " ++ path ++ ": " ++ openReason "No such file" e)
      | .ok file =>
        begin fun s => { s with name := path, args }
        r.orEnd (r.runText {} .script (ofBytes (s.contents file)))

end Runner

/-! ## Programs -/

/-- The number of rounds that a loop may have. -/
def roundLimit : Nat :=
  1000000000

/-- A shell whose commands may be nested to some depth. Deeper ones take more memory than there
is. -/
def runner : (depth : Nat) → Runner
  | 0 =>
    { command := fun _ _ => throw (.died 11)
      text := fun _ _ => throw (.died 11)
      word := fun _ _ => throw (.died 11)
      program := fun _ _ => throw (.died 11) }
  | depth + 1 =>
    { command := fun place c => (runner depth).runCommand roundLimit place c
      text := fun place text => (runner depth).runText place .argument text
      word := fun purpose w => (runner depth).expand purpose w
      program := fun name args =>
        (runner depth).inProcess (State.begin name) ((runner depth).shell args) }

/-- How deep commands may be nested. -/
def depthLimit : Nat :=
  5000

/-- A shell without input in a file tree. -/
def State.first (cwd : Location) (tree : FileTree) : State where
  tree := tree
  files := #[{ channel := .null }, { channel := .pipe .empty }, { channel := .pipe .empty }]
  documents := []
  cwd := cwd
  streams := [(0, 0), (1, 1), (2, 2)]
  bindings := [("PATH", ⟨some "/nonexistent", true, false⟩)]
  name := ""
  args := []

def program : Program where
  run name args cwd tree :=
    let (result, s) := ((runner depthLimit).program (encode name) (args.map encode)).run.run
      (State.first cwd tree)
    let status := match result with
      | .ok (.ok status) => .code status
      | .ok (.error signal) | .error (.died signal) => .signal signal
      | .error _ => .code 2
    (s.tree, ⟨status, ((s.files[2]?).map s.contents).getD .empty⟩)

end FolderFlow.Shell
