import FolderFlow.Config.Validate
import FolderFlow.Host.Basic
import FolderFlow.Host.Path
import FolderFlow.Json.Parser
import FolderFlow.Toml.Parser

/-!
# Loading configurations

A configuration is written in JSON or in TOML. Both give a JSON value, which is then read in the
same way.
-/

namespace FolderFlow

inductive ConfigFormat where
  | json
  | toml
  deriving DecidableEq, Repr

namespace ConfigFormat

/-- TOML for files with that extension in either case, JSON for all others. -/
def ofPath (path : String) : ConfigFormat :=
  match Path.extension? path with
  | some ext => if ext.toList.map Char.toLower == ['t', 'o', 'm', 'l'] then toml else json
  | none => json

def name : ConfigFormat → String
  | json => "JSON"
  | toml => "TOML"

def parse? : ConfigFormat → String → Option Json
  | json => Json.parse?
  | toml => Toml.parse?

end ConfigFormat

inductive LoadError where
  | notFound (path : String)
  | unreadable (path : String) (cause : SystemError)
  /-- The text is not of the format. -/
  | malformed (format : ConfigFormat) (path : String)
  | invalid (fault : ConfigError)
  deriving DecidableEq, Repr

def LoadError.message : LoadError → String
  | notFound path => path ++ " not found"
  | unreadable path cause => "failed to read " ++ path ++ ": " ++ cause.message
  | malformed format path => "invalid " ++ format.name ++ " in " ++ path
  | invalid fault => fault.message

namespace Config

/-- The configuration that a text at a path describes. -/
def ofText (format : ConfigFormat) (path text : String) : Except LoadError Config :=
  match format.parse? text with
  | none => .error (.malformed format path)
  | some raw => (validate raw).mapError .invalid

/-- The name that stands for the path of a text that is in no file. -/
def inlinePath : String :=
  "<inline>"

variable {m : Type → Type} [Monad m] [Host m]

def loadFile (path : String) : m (Except LoadError Config) := do
  match ← Host.readText path with
  | .ok text => return ofText (.ofPath path) path text
  | .error .notFound => return .error (.notFound path)
  | .error cause => return .error (.unreadable path cause)

end Config

end FolderFlow
