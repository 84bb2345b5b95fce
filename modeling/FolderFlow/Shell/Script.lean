import FolderFlow.Shell.Expansion
import FolderFlow.Shell.Parser

/-!
# Running scripts

A script is read line by line, and each line is run before the next one is read. An interactive
shell asks for its lines with prompts, and lines are shown where the script asks for that.
-/

namespace FolderFlow.Shell

namespace Runner

variable (r : Runner)

/-- Runs the traps of the signals that have come. -/
def runTraps : Exec Unit := do
  let s ← get
  if s.isFirst && !s.signals.isEmpty && s.jump.isNone then
    set { s with signals := [] }
    for n in s.signals.mergeSort fun a b => a ≤ b do
      let s ← get
      match s.traps.lookup n with
      | none => pure ()
      | some action =>
        let before := s.trapStatus.getD s.status
        set { s with trapStatus := some before }
        r.text {} action
        modify fun t => { t with trapStatus := s.trapStatus }
        if (← get).jump != some .returnCaller then setStatus before

/-- The text of a prompt. One that cannot be read stands for itself. No commands are shown while it
is put together. -/
def prompt (name : String) : Exec String := do
  let s ← get
  let text := (s.value? name).getD ""
  let start := { Reader.start text s.documents with
    aliases := s.aliases
    pushed := if s.isReadOut then some .endOfFile else none }
  set (s.setOption 'x' false)
  let result ←
    try
      match readPrompt.run start with
      | .error e =>
        modify fun s => { s with line := e.line, isReadOut := false }
        fault e.text
      | .ok (w, after) =>
        modify fun s => { s with documents := after.documents, isReadOut := after.isReadOut }
        r.textOf w
    catch
      | .fault => pure text
      | stop => throw stop
  modify fun t => t.setOption 'x' (s.has 'x')
  return result

/-- What has been read of a text of which some is left, to the end of a line. -/
def linesRead (text : List Char) (left : Nat) : List Char :=
  let start := text.take (text.length - left)
  let rest := text.drop (text.length - left)
  match start.getLast? with
  | none | some '\n' => start
  | _ => start ++ rest.takeWhile (· != '\n') ++ (rest.dropWhile (· != '\n')).take 1

/-- The lines of a text with their ends. -/
def linesOf : List Char → List (List Char)
  | [] => []
  | c :: cs =>
    match c, linesOf cs with
    | '\n', lines => ['\n'] :: lines
    | c, line :: lines => (c :: line) :: lines
    | c, [] => [[c]]

/-- What a text is read from. -/
inductive Source where
  | argument
  /-- A file that another script asks for. -/
  | file
  /-- What the shell runs as its script, where that is no argument. -/
  | script
  deriving DecidableEq, Repr

/-- Shows the lines that have been read, if the script asks for that, and what an interactive shell
has asked for lines behind the first with. -/
def showLines (source : Source) (text : List Char) (left asked : Nat) : Exec Unit := do
  let s ← get
  let shows := source != .argument && s.has 'v'
  let asks := source == .script && s.isInteractive
  if shows || asks then
    let question ← if asks && asked != 0 then r.prompt "PS2" else pure ""
    for (line, n) in (linesOf (linesRead text left)).zipIdx do
      if shows then writeError (String.ofList line)
      if n < asked then writeError question

/-- How often a shell that is not to end with its input reads on behind the end. -/
def endLimit : Nat :=
  50

/-- Ends the script of a shell. -/
def endScript : Exec Unit := do
  let s ← get
  if s.has 'I' then
    for _ in List.range endLimit do
      writeError "\nUse \"exit\" to leave shell.\n"
      if s.isInteractive then writeError (← r.prompt "PS1")
  else if s.isInteractive then writeError "\n"

/-- Runs what is left of a text, line by line. -/
def runLines (place : Place) (source : Source) : (fuel : Nat) → Reader → Exec Unit
  | 0, _ => return ()
  | fuel + 1, reader => do
    if source == .script && (← get).isInteractive then writeError (← r.prompt "PS1")
    let s ← get
    let reader := { reader with
      documents := s.documents, aliases := s.aliases, asked := 0, asksNext := false }
    match readLine.run reader with
    | .error e =>
      r.showLines source reader.rest e.left e.asked
      modify fun s => { s with line := e.line }
      fault e.text
    | .ok (c, after) =>
      r.showLines source reader.rest after.rest.length after.asked
      modify fun s =>
        { s with
          documents := after.documents, readLine := after.line, isReadOut := after.isReadOut }
      match c with
      | none => if source == .script then r.endScript
      | some c =>
        match c with
        | some c => r.command place c
        | none => pure ()
        if (← get).jump.isNone then runLines place source fuel after

/-- Whether a text says anything to run. -/
def saysNothing (text : String) : Bool :=
  match readLine.run (.start text []) with
  | .ok (none, _) => true
  | .ok (some none, reader) => reader.rest.all fun c => c == ' ' || c == '\t' || c == '\n'
  | _ => false

def runText (place : Place) (source : Source) (text : String) : Exec Unit := do
  if source != .script && saysNothing text then setStatus 0
  let s ← get
  r.runLines place source (text.length + 2) (.start text s.documents)
  modify fun t => { t with readLine := s.readLine }

end Runner

end FolderFlow.Shell
