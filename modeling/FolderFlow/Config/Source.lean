import FolderFlow.Config.Load

/-!
# Where the configuration is

A configuration is named on the command line, or else it is the first file of a known name in the
project directory.
-/

namespace FolderFlow

inductive ConfigSource where
  | explicit (path : String)
  | project (path : String)
  | missing
  deriving DecidableEq, Repr

namespace ConfigSource

def jsonName : String :=
  "structure.config.json"

def tomlName : String :=
  "structure.config.toml"

def path? : ConfigSource → Option String
  | explicit path => some path
  | project path => some path
  | missing => none

variable {m : Type → Type} [Monad m] [Host m]

/-- The first of the paths at which there is something. -/
def firstOf : List String → m ConfigSource
  | [] => return .missing
  | path :: paths => do
    if ← Host.pathExists path then return .project path else firstOf paths

/-- A path that is named is not looked at. -/
def resolve (dir : String) (named : Option String) : m ConfigSource :=
  match named with
  | some path => return .explicit path
  | none => firstOf [Path.join dir jsonName, Path.join dir tomlName]

end ConfigSource

/-- Why a project has no configuration to work with. -/
inductive ProjectError where
  | noConfig (dir : String)
  | invalid (path : String) (fault : ConfigError)
  | unloadable (path : String) (cause : LoadError)
  deriving DecidableEq, Repr

def ProjectError.message : ProjectError → String
  | noConfig dir =>
    "No " ++ ConfigSource.jsonName ++ " found in " ++ dir ++ ". Run `kekkai init` to create one."
  | invalid path _ => "Invalid configuration: " ++ path
  | unloadable path _ => "Failed to load config: " ++ path

/-- What lies behind an error and is not told by its message. -/
def ProjectError.cause? : ProjectError → Option LoadError
  | unloadable _ cause => some cause
  | _ => none

namespace Config

variable {m : Type → Type} [Monad m] [Host m]

def loadProject (dir : String) (named : Option String) : m (Except ProjectError Config) := do
  match (← ConfigSource.resolve dir named).path? with
  | none => return .error (.noConfig dir)
  | some path =>
    match ← loadFile path with
    | .ok config => return .ok config
    | .error (.invalid fault) => return .error (.invalid path fault)
    | .error cause => return .error (.unloadable path cause)

end Config

end FolderFlow
