import FolderFlow.Shell.Arithmetic
import FolderFlow.Shell.Runner

/-!
# Substitutions

What the words of a command stand for. Parameters, outputs of commands and arithmetic expressions
are put in, and then fields are cut and patterns of paths are replaced by the paths that there are.
-/

namespace FolderFlow.Shell

namespace Runner

variable (r : Runner)

/-! ## Parameters -/

/-- What joins all arguments. -/
def joint : Exec String := do
  return String.ofList ((((← get).value? "IFS").getD " ").toList.take 1)

/-- The value of a parameter other than all arguments. -/
def scalar? (p : Parameter) : Exec (Option String) := do
  let s ← get
  return match p with
    | .variable name => s.value? name
    | .position 0 => some s.name
    | .position (n + 1) => s.args[n]?
    | .count => some (toString s.args.length)
    | .all _ => none
    | .status => some (toString s.status)
    | .process => some (toString State.processId)
    | .options => some s.optionText
    | .lastJob => s.lastJob.map toString

/-- The arguments with edges between them. -/
def edged (args : List String) (quoted : Bool) : List Mark :=
  [Mark.edge].intercalate (args.map fun a => (Run.ofText a quoted .nowhere).marks)

/-- The value of a parameter as a run. -/
def value? (purpose : Purpose) (p : Parameter) (quoted : Bool) : Exec (Option Run) := do
  let cut := if quoted then Cut.nowhere else .atSeparators
  match p with
  | .all separate =>
    let args := (← get).args
    if quoted && separate && purpose.fields then
      return some ⟨edged args true, if args.isEmpty then .nowhere else .atEdges⟩
    else if !quoted && purpose.fields then return some ⟨edged args false, cut⟩
    else return some (.ofText ((← joint).intercalate args) quoted cut)
  | p => return (← scalar? p).map fun v => .ofText v quoted cut

/-- The text of a word that is not cut. -/
def textOf (w : Word) : Exec String := do
  return textOfRuns (← r.word { fields := false } w)

/-- The value that a word assigns. -/
def valueOf (w : Word) : Exec String := do
  return textOfRuns (← r.word { fields := false, assigned := true } w)

def patternOf (w : Word) : Exec Pattern := do
  return (← r.word { fields := false } w).flatMap fun run => glyphs run.marks

/-- The complaint about a parameter without a value. -/
def unset {α : Type} (p : Parameter) (why : String) : Exec α :=
  fault (p.name ++ ": " ++ why)

def isMissing (ofEmpty : Bool) (value : Option Run) : Bool :=
  match value with
  | none => true
  | some run => ofEmpty && run.marks.isEmpty

/-- A parameter with a word for when it has no value. -/
def withFallback (purpose : Purpose) (p : Parameter) (kind : Fallback) (ofEmpty : Bool)
    (w : Word) (quoted : Bool) : Exec (List Run) := do
  let value ← value? purpose p quoted
  let missing := isMissing ofEmpty value
  let word := r.word { purpose with standsIn := !quoted } w
  match kind with
  | .use => if missing then word else return value.toList
  | .replace => if missing then return [] else word
  | .assign =>
    if !missing then return value.toList
    let text ← r.valueOf w
    match p with
    | .variable name =>
      Shell.assign name text
      return (← value? purpose p quoted).toList
    | p => fault (p.name ++ ": bad variable name")
  | .complain =>
    if !missing then return value.toList
    if w.isEmpty then
      unset p (if ofEmpty then "parameter not set or null" else "parameter not set")
    else unset p (← r.textOf w)

/-- The value of a parameter that must have one if the shell insists on it. -/
def required? (purpose : Purpose) (p : Parameter) (quoted : Bool) : Exec (Option Run) := do
  match ← value? purpose p quoted with
  | some run => return some run
  | none => if (← get).has 'u' then unset p "parameter not set" else return none

def parameter (purpose : Purpose) (p : Parameter) (use : Use) (quoted : Bool) :
    Exec (List Run) := do
  let cut := if quoted then Cut.nowhere else .atSeparators
  match use with
  | .value => return (← required? purpose p quoted).toList
  | .last w => return (← required? purpose p quoted).toList ++ (← r.word purpose w)
  | .length =>
    let run ← required? { fields := false } p quoted
    return [.ofText (toString ((run.map (·.marks.length)).getD 0)) quoted cut]
  | .fallback kind ofEmpty w => r.withFallback purpose p kind ofEmpty w quoted
  | .trim atEnd longest w =>
    let args := (← get).args
    if p == .all true && quoted && purpose.fields && !args.isEmpty then
      let texts := (← r.patternOf w).trimAll atEnd longest (args.map String.toList)
      return [⟨edged (texts.map String.ofList) true, .atEdges⟩]
    match ← required? { fields := false } p quoted with
    | none => return []
    | some run =>
      let pattern ← r.patternOf w
      let text := (textOfRuns [run]).toList
      return [.ofText (String.ofList (pattern.trim atEnd longest text)) quoted cut]
  | .unknown => fault "Bad substitution"

/-! ## Outputs -/

def dropNewlines (bytes : List UInt8) : List UInt8 :=
  (bytes.reverse.dropWhile (· == 10)).reverse

/-- What a command writes, without the line ends behind it and without zeros. -/
def output (body : Option Command) : Exec String := do
  match body with
  | none => return ""
  | some c =>
    let s ← get
    let (t, number) := s.openNew { channel := .pipe .empty }
    set t
    let status ← r.inChild do
      modify fun s => s.setStream 1 number
      r.command { last := true } c
    modify fun s => { s with outputStatus := status }
    match (← get).files[number]? with
    | some file =>
      let bytes := ((← get).contents file).toList.filter (· != 0)
      return ofBytes ⟨(dropNewlines bytes).toArray⟩
    | none => return ""

/-! ## Words -/

/-- The directories of the users that there are. -/
def userHomes : List (String × String) :=
  [("root", "/root"), ("daemon", "/usr/sbin"), ("bin", "/bin"), ("sys", "/dev"), ("sync", "/bin"),
    ("games", "/usr/games"), ("man", "/var/cache/man"), ("lp", "/var/spool/lpd"),
    ("mail", "/var/mail"), ("news", "/var/spool/news"), ("uucp", "/var/spool/uucp"),
    ("proxy", "/bin"), ("www-data", "/var/www"), ("backup", "/var/backups"), ("list", "/var/list"),
    ("irc", "/run/ircd"), ("nobody", "/nonexistent")]

/-- The directory that a tilde stands for, with or without the name of a user. -/
def homeOf? (s : State) (user : String) : Option String :=
  if user.isEmpty then s.value? "HOME" else userHomes.lookup user

/-- A path whose first name may be a tilde, given whether that name ends with the path. -/
def expandTilde (s : State) (ends : Bool) (path : List Char) : Word :=
  match path with
  | '~' :: cs =>
    let rest := cs.dropWhile (· != '/')
    match homeOf? s (String.ofList (cs.takeWhile (· != '/'))) with
    | some home =>
      if rest.isEmpty && !ends then [.text (String.ofList path) false]
      else
        (if home.isEmpty then [] else [.text home true]) ++
          (if rest.isEmpty then [] else [.text (String.ofList rest) false])
    | none => [.text (String.ofList path) false]
  | path => [.text (String.ofList path) false]

/-- The paths between colons, each of which may begin with a tilde if `first` or if it is not the
first. -/
def expandTildes (s : State) (first ends : Bool) : List (List Char) → Word
  | [] => []
  | path :: paths =>
    let expanded := if first then expandTilde s (ends || !paths.isEmpty) path
      else [.text (String.ofList path) false]
    if paths.isEmpty then expanded
    else expanded ++ .text ":" false :: expandTildes s true ends paths

/-- Puts in the directories that tildes stand for, which begin the word or, in the value of a
variable, a path of its list. -/
def withoutTildes (s : State) (assigned first : Bool) : Word → Word
  | [] => []
  | .text text false :: parts =>
    let paths := if assigned then splitAt ':' text.toList else [text]
    expandTildes s first parts.isEmpty (paths.map String.toList) ++
      withoutTildes s assigned false parts
  | p :: parts => p :: withoutTildes s assigned false parts

def part (purpose : Purpose) : Part → Exec (List Run)
  | .text s true => return [.ofQuoted s]
  | .text s false => return [.ofText s false (if purpose.standsIn then .atSeparators else .nowhere)]
  | .parameter p use quoted => r.parameter purpose p use quoted
  | .output body quoted => do
    return [.ofText (← r.output body) quoted (if quoted then .nowhere else .atSeparators)]
  | .arithmetic expression quoted => do
    let n ← Arithmetic.evaluate (← r.textOf expression)
    return [.ofText (toString n) quoted (if quoted then .nowhere else .atSeparators)]

/-- The parts of a word, up to one with which it ends. -/
def partsToLast : Word → Word
  | [] => []
  | .parameter p (.last w) quoted :: _ => [.parameter p (.last w) quoted]
  | p :: parts => p :: partsToLast parts

def expand (purpose : Purpose) (w : Word) : Exec (List Run) := do
  let w := withoutTildes (← get) purpose.assigned true (partsToLast w)
  return (← w.mapM (r.part purpose)).flatten

/-- The fields of a word, with paths put in for patterns. -/
def fieldsOf (w : Word) : Exec (List String) := do
  let runs ← r.word { fields := true } w
  let s ← get
  let separators := (s.value? "IFS").getD standardSeparators
  return (fieldsOfRuns separators none runs).flatMap fun field =>
    let paths := if s.has 'f' then [] else field.expandPath s.tree s.cwd
    if paths.isEmpty then [field.text] else paths

def fieldsOfAll (ws : List Word) : Exec (List String) := do
  return (← ws.mapM r.fieldsOf).flatten

end Runner

end FolderFlow.Shell
