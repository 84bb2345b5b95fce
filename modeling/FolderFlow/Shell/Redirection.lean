import FolderFlow.Shell.Builtin.Test
import FolderFlow.Shell.Expansion

/-!
# Redirections

Streams that read from files and write to files for the time of a command. All words are put in
place first; then one stream after the other is set, until one cannot be.
-/

namespace FolderFlow.Shell

/-- What a redirection says once its words are put in place. -/
inductive Redirected where
  | file (stream : Nat) (opening : Opening) (path : String)
  | copy (stream source : Nat)
  | close (stream : Nat)
  | document (stream number : Nat)

/-- Why a file cannot be opened, in the words for what it was to be opened for. -/
def openReason (missing : String) (e : SystemError) : String :=
  match e with
  | .notFound | .notADirectory => missing
  | e => e.reason

/-- The stream that a path names. -/
def namedStream? (path : String) : Option Nat :=
  match path with
  | "/dev/stdin" => some 0
  | "/dev/stdout" => some 1
  | "/dev/stderr" => some 2
  | _ =>
    match path.toList.drop 8 with
    | [c] => if path == "/dev/fd/" ++ String.singleton c && c.isDigit then some (Text.digitValue c)
      else none
    | _ => none

/-- A new open file for reading. Nothing can be read from a directory. -/
def openInput (s : State) (path : String) : Except SystemError OpenFile := do
  let loc ← s.locate path
  let nothing := loc == nullFile || s.tree.isDir loc
  return { channel := if nothing then .null else .file loc, writable := false }

/-- The tree with a file to write to, and the file. Others than the regular files are left alone. -/
def openOutput (s : State) (opening : Opening) (path : String) :
    Except SystemError (FileTree × OpenFile) := do
  let loc ← s.tree.target s.cwd (decode path)
  let found := s.tree.find? loc
  if loc == nullFile then return (s.tree, { channel := .null })
  if opening == .write && s.has 'C' && found.isSome then .error .alreadyExists
  let keeps := opening == .append || opening == .readWrite
  let tree := if found.isSome && keeps then s.tree else s.tree.put loc (.file .empty)
  return (tree, {
    channel := .file loc, readable := opening == .readWrite, append := opening == .append })

/-- Opens a file and gives its number. -/
def openPath (opening : Opening) (path : String) : Exec Nat := do
  let s ← get
  match (namedStream? path).bind fun n => s.streams.lookup n with
  | some number => return number
  | none =>
    match opening with
    | .read =>
      match openInput s path with
      | .ok file =>
        let (s, number) := s.openNew file
        set s
        return number
      | .error e => fault ("cannot open " ++ path ++ ": " ++ openReason "No such file" e)
    | opening =>
      match openOutput s opening path with
      | .ok (tree, file) =>
        let (s, number) := { s with tree }.openNew file
        set s
        return number
      | .error e =>
        let refused := opening == .write && s.has 'C' && e == .isADirectory
        let failed := if refused then "cannot open " else "cannot create "
        fault (failed ++ path ++ ": " ++ openReason "Directory nonexistent" e)

namespace Runner

variable (r : Runner)

/-- The complaint about a word that should be the number of a stream. -/
def badNumber {α : Type} : Exec α := do
  modify fun s => { s with line := s.readLine }
  fault "Syntax error: Bad fd number"

/-- Puts the words of a redirection in place. -/
def prepare : Redirect → Exec Redirected
  | .file stream opening target => return .file stream opening (← r.textOf target)
  | .copy stream source => do
    match (← r.textOf source).toList with
    | ['-'] => return .close stream
    | [c] =>
      if c.isDigit then return .copy stream (Text.digitValue c)
      else badNumber
    | _ => badNumber
  | .document stream number => return .document stream number

/-- Sets one stream. A stream that is put back later is closed before it becomes the copy of
another, so that a complaint is lost with it. -/
def redirect (returns : Bool) : Redirected → Exec Unit
  | .file stream opening path => do
    let number ← openPath opening path
    modify fun s => s.setStream stream number
  | .copy stream source => do
    if stream != source then
      match (← get).streams.lookup source with
      | some number => modify fun s => s.setStream stream number
      | none =>
        if returns then modify fun s => s.closeStream stream
        fault (toString source ++ ": Bad file descriptor")
  | .close stream => modify fun s => s.closeStream stream
  | .document stream number => do
    let text ← r.textOf (((← get).documents.lookup number).getD [])
    let (s, file) := (← get).openNew { channel := .pipe (toBytes text), writable := false }
    set (s.setStream stream file)

/-- Sets streams one after the other; tells whether all of them could be set. -/
def redirectAll (returns : Bool) (rs : List Redirected) : Exec Bool := do
  try
    rs.forM (r.redirect returns)
    return true
  catch
    | .fault => return false
    | stop => throw stop

/-- Runs with other streams, and puts the streams back in any case. -/
def restoring {α : Type} (body : Exec α) : Exec α := do
  let streams := (← get).streams
  try
    let result ← body
    modify fun s => { s with streams }
    return result
  catch stop =>
    modify fun s => { s with streams }
    throw stop

/-- Runs with streams set as redirections say, or something else if they cannot be set. -/
def withRedirects (redirects : List Redirect) (body otherwise : Exec Unit) : Exec Unit := do
  let rs ← redirects.mapM r.prepare
  restoring do
    if ← r.redirectAll true rs then body else otherwise

end Runner

end FolderFlow.Shell
