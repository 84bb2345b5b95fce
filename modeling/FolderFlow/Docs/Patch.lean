import FolderFlow.Config.Basic
import FolderFlow.Docs.Cache
import FolderFlow.Docs.Diagram
import FolderFlow.Docs.Formatter
import FolderFlow.Docs.Marker
import FolderFlow.Flow.Hash

/-!
# Patching the docs file

The region that the markers bound in the docs file is filled with the diagram of the flow and the
text behind it. The file is written when that changes it, and only then is the formatter run. The
cache is brought up to date in any case and decides nothing.

The patterns of the markers are made before anything is read, and a tag may be refused then, such as
one that makes them too large. Which tags are refused, and with what complaint, is left open: a
patcher has a function that tells, and `ε` is the type of the complaints. Where nothing else is said
there are none.
-/

namespace FolderFlow

/-- Why a patch fails. The flow can always be hashed, so nothing fails once the file is written. -/
inductive DocsError (ε : Type := Empty) where
  /-- The tag of the markers is refused. -/
  | pattern (complaint : ε)
  | unreadable (path : String) (cause : SystemError)
  | marker (fault : MarkerError)
  | unwritable (path : String) (cause : SystemError)
  deriving DecidableEq, Repr

instance instToStringEmpty : ToString Empty where
  toString := nofun

def DocsError.message {ε : Type} [ToString ε] : DocsError ε → String
  | pattern complaint => "invalid marker tag: " ++ toString complaint
  | unreadable path _ => "docs file not found or unreadable: " ++ path
  | marker fault => fault.message
  | unwritable path cause => "failed to write " ++ path ++ ": " ++ cause.message

structure PatchReport where
  path : String
  written : Bool
  formatted : Bool
  hash : String
  cache : CacheStatus
  deriving DecidableEq, Repr

namespace Docs

/-- What stands behind the diagram unless the configuration says otherwise. -/
def defaultContent : String :=
  "\nThis project follows a **One-way Dependency Flow** principle:\n\n" ++
  "- Each folder may only import modules that lie downstream along the arrow direction\n" ++
  "- Upstream or reverse imports are not allowed\n\n" ++
  "> This rule is also enforced via **ESLint**.\n"

def body (flow : Flow) (docs : DocsOptions) : String :=
  Diagram.render flow ++ "\n" ++ docs.content.getD defaultContent

/-- The text of a docs file with its region brought up to date. -/
def patched (flow : Flow) (docs : DocsOptions) (text : String) : Except MarkerError String :=
  splice docs.markerTag text (body flow docs)

end Docs

/-- How the docs of a project are patched. -/
structure DocsPatcher (ε : Type := Empty) where
  root : String
  cache : Option DirCache := none
  formatter : Option Formatter := none
  /-- Makes the patterns of the markers of a tag, or refuses the tag. -/
  compile : String → Except ε Unit := fun _ => .ok ()

namespace DocsPatcher

variable {ε : Type} {m : Type → Type} [Monad m] [Host m]

/-- Runs the formatter, which may work elsewhere and is given the absolute path; tells whether it
succeeded. -/
def format (p : DocsPatcher ε) (path : String) : m Bool := do
  match p.formatter with
  | none => return false
  | some formatter =>
    let target := match ← Host.realPath path with
      | .ok target => target
      | .error _ => path
    match ← formatter.run target with
    | .ok () => return true
    | .error e =>
      Host.log .warn ("Formatting " ++ path ++ " skipped: " ++ e.message)
      return false

def record (p : DocsPatcher ε) (hash : String) : m CacheStatus :=
  match p.cache with
  | none => return .disabled
  | some cache => cache.record hash

/-- Writes the patched text unless it is the text that is there; tells whether it was written. -/
def update (path current patched : String) : m (Except SystemError Bool) := do
  if patched = current then
    return .ok false
  else
    match ← Host.writeText path patched with
    | .ok () =>
      Host.log .info ("Updated dependency flow in " ++ path)
      return .ok true
    | .error e => return .error e

/-- What is left to do once the docs file is up to date. -/
def conclude (p : DocsPatcher ε) (flow : Flow) (path : String) (written : Bool) :
    m PatchReport := do
  let formatted ← if written then p.format path else pure false
  let hash := flow.hash
  let cache ← p.record hash
  return { path, written, formatted, hash, cache }

def patch (p : DocsPatcher ε) (flow : Flow) (docs : DocsOptions) :
    m (Except (DocsError ε) PatchReport) := do
  let path := Path.join p.root docs.file
  match p.compile docs.markerTag with
  | .error complaint => return .error (.pattern complaint)
  | .ok () =>
    match ← Host.readText path with
    | .error e => return .error (.unreadable path e)
    | .ok current =>
      match Docs.patched flow docs current with
      | .error fault => return .error (.marker fault)
      | .ok patched =>
        match ← update path current patched with
        | .error e => return .error (.unwritable path e)
        | .ok written => return .ok (← p.conclude flow path written)

end DocsPatcher

end FolderFlow
