import FolderFlow.Host.Log
import FolderFlow.Host.Path
import FolderFlow.Text.Blank

/-!
# The cache of the flow hash

A cache is a directory with one file for each key. It tells whether the flow has changed since the
docs were last patched, and no more than that: an entry that cannot be read is no entry.
-/

namespace FolderFlow

structure DirCache where
  dir : String
  deriving DecidableEq, Repr

inductive CacheStatus where
  | disabled
  | unchanged
  | updated
  | writeFailed
  deriving DecidableEq, Repr

namespace DirCache

/-- The key of the flow hash. -/
def hashKey : String :=
  "dependency-flowchart-hash"

/-- Where the cache is kept in a project. -/
def defaultDir : String :=
  "node_modules/.cache/kekkai"

def isNameChar (c : Char) : Bool :=
  c.isAlphanum || c == '-' || c == '_'

/-- The file of a key lies in the directory itself, whatever the key holds. -/
def fileName (key : String) : String :=
  String.ofList (key.toList.map fun c => if isNameChar c then c else '_')

def entryPath (cache : DirCache) (key : String) : String :=
  Path.join cache.dir (fileName key)

variable {m : Type → Type} [Monad m] [Host m]

/-- The trimmed text of an entry. -/
def get (cache : DirCache) (key : String) : m (Option String) := do
  match ← Host.readText (cache.entryPath key) with
  | .ok text => return some (Text.trim text)
  | .error _ => return none

def put (cache : DirCache) (key value : String) : m (Except SystemError Unit) := do
  match ← Host.createDirs cache.dir with
  | .ok () => Host.writeText (cache.entryPath key) value
  | .error e => return .error e

/-- Brings the entry of the flow hash up to date. -/
def record (cache : DirCache) (hash : String) : m CacheStatus := do
  if (← cache.get hashKey) == some hash then
    return .unchanged
  else
    match ← cache.put hashKey hash with
    | .ok () => return .updated
    | .error e =>
      Host.log .warn ("Failed to update dependency flow cache: " ++ e.message)
      return .writeFailed

end DirCache

end FolderFlow
