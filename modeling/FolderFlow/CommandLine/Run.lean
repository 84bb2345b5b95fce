import FolderFlow.CommandLine.Invocation
import FolderFlow.Config.Source
import FolderFlow.Docs.Patch

/-!
# Running commands

The four commands on the project in the working directory, and what becomes of the whole program.
Messages are those of the levels `info` and `warn`; what `--verbose` adds to them, the lines of
level `debug`, is left out, so that an invocation does the same with and without it.
-/

namespace FolderFlow

/-- Why a command fails. -/
inductive CommandError where
  | project (cause : ProjectError)
  | unwritable (path : String) (cause : SystemError)
  | patch (file : String) (cause : DocsError)
  | configExists (path : String)
  deriving DecidableEq, Repr

namespace CommandError

def message : CommandError → String
  | project cause => cause.message
  | unwritable path _ => "Failed to write " ++ path
  | patch file _ => "Failed to patch " ++ file
  | configExists path =>
    "Configuration file already exists at " ++ path ++ ". Use --force to overwrite."

/-- What lies behind the message. -/
def detail? : CommandError → Option String
  | project (.unloadable _ cause) => some cause.message
  | project (.invalid _ fault) => some fault.message
  | project (.noConfig _) => none
  | unwritable _ cause => some cause.message
  | patch _ cause => some cause.message
  | configExists _ => none

end CommandError

namespace Command

/-- The directory of the project. -/
def projectDir : String :=
  "."

/-- The configuration that a new project starts with. -/
def defaultConfig : String := "\x7b
  \"appAlias\": \"@\",
  \"dependencyFlow\": [
    [\"pages\", \"layouts\"],
    [\"layouts\", \"containers\"],
    [\"containers\", \"contexts\", \x7b \"selfOnly\": true, \"label\": \"Only Provider\" \x7d],
    [\"containers\", \"components\"],
    [\"components\", \"hooks\"],
    [\"hooks\", \"contexts\", \x7b \"selfOnly\": true, \"label\": \"Only Context\" \x7d],
    [\"contexts\", \"services\"],
    [\"components\", \"utils\"],
    [\"services\", \"utils\"]
  ],
  \"lintFiles\": \"src/\x7bfolder\x7d/**/*.\x7bts,tsx\x7d\",
  \"overrideRules\": \x7b\x7d,
  \"packageImportRules\": [],
  \"docs\": \x7b
    \"file\": \"README.md\",
    \"markerTag\": \"DEPENDENCY_FLOW\"
  \x7d
\x7d
"

/-- What is printed when the configuration has been written. -/
def nextSteps : List String :=
  ["Created " ++ ConfigSource.jsonName,
    "",
    "Next steps:",
    "  1. Edit " ++ ConfigSource.jsonName ++ " to describe your folder dependency flow",
    "  2. Run: kekkai check",
    "  3. Add DEPENDENCY_FLOW:START / DEPENDENCY_FLOW:END markers to README.md",
    "  4. Run: kekkai docs"]

variable {m : Type → Type} [Monad m] [Host m]

def printLines : List String → m Unit
  | [] => return ()
  | line :: lines => do
    Host.printLine line
    printLines lines

/-- The configuration that the options name, or that of the project. -/
def load (config : Option String) : m (Except CommandError Config) := do
  return (← Config.loadProject projectDir config).mapError .project

/-! ## check -/

def summary (c : Config) : String :=
  "Configuration OK: " ++ toString c.folderRules.length ++ " folders, " ++
    toString c.flow.edges.length ++ " edges"

def runCheck (c : Config) : m Unit := do
  Host.log .info (summary c)
  printLines (Listing.disallowedLines c.folderRules)

/-! ## rules -/

/-- Tells of the overrides that have no effect, one folder after the other. -/
def warnOverrides : List FolderRules → m Unit
  | [] => return ()
  | r :: rs => do
    if FlatConfig.overridesGenerated r then
      Host.logWith .warn
        ("overrideRules." ++ FlatConfig.restrictedImports ++ " is replaced by the generated rule")
        "folder" r.folder
    warnOverrides rs

/-- Puts a listing into the output file, or else on the standard output. -/
def deliver (rendered : String) (output : Option String) : m (Except CommandError Unit) := do
  match output with
  | none =>
    Host.printLine rendered
    return .ok ()
  | some path =>
    match ← Host.writeText path (rendered ++ "\n") with
    | .ok () =>
      Host.log .info ("Wrote " ++ path)
      return .ok ()
    | .error e => return .error (.unwritable path e)

def runRules (c : Config) (format : ListingFormat) (output : Option String) :
    m (Except CommandError Unit) := do
  if format = .eslint then warnOverrides c.folderRules
  deliver (Listing.render c.folderRules format) output

/-! ## docs -/

def patcher (format : Bool) (cacheDir : Option String) : DocsPatcher where
  root := projectDir
  cache := some ⟨cacheDir.getD (Path.join projectDir DirCache.defaultDir)⟩
  formatter := if format then some { Formatter.prettier with dir := some projectDir } else none

def describeCache : CacheStatus → String
  | .unchanged => "flow unchanged"
  | .updated => "flow changed"
  | .disabled | .writeFailed => "flow hash not cached"

def describeReport (r : PatchReport) : String :=
  r.path ++ (if r.written then " updated (" else " already up to date (") ++
    describeCache r.cache ++ ")"

def runDocs (c : Config) (format : Bool) (cacheDir : Option String) :
    m (Except CommandError Unit) := do
  match c.docs with
  | none =>
    Host.log .info "No `docs` section in config; nothing to patch"
    return .ok ()
  | some target =>
    match ← (patcher format cacheDir).patch c.flow target with
    | .ok report =>
      Host.printLine (describeReport report)
      return .ok ()
    | .error e => return .error (.patch target.file e)

/-! ## init -/

def runInit (force : Bool) : m (Except CommandError Unit) := do
  let path := Path.join projectDir ConfigSource.jsonName
  if (← Host.pathExists path) && !force then
    return .error (.configExists path)
  else
    match ← Host.writeText path defaultConfig with
    | .ok () =>
      printLines nextSteps
      return .ok ()
    | .error e => return .error (.unwritable path e)

/-! ## All commands -/

def run (config : Option String) (command : Command) : m (Except CommandError Unit) := do
  match command with
  | .init force => runInit force
  | .check =>
    match ← load config with
    | .error e => return .error e
    | .ok c =>
      runCheck c
      return .ok ()
  | .rules format output =>
    match ← load config with
    | .error e => return .error e
    | .ok c => runRules c format output
  | .docs format cacheDir =>
    match ← load config with
    | .error e => return .error e
    | .ok c => runDocs c format cacheDir

end Command

/-! ## The program -/

namespace Invocation

def versionLine : String :=
  "kekkai 0.3.0"

def helpLines : List String :=
  ["One-way dependency flow enforcement for frontend source folders",
    "",
    "Usage: kekkai [OPTIONS] <COMMAND>",
    "",
    "Commands:",
    "  check  Validate the configuration and show what each folder may not import",
    "  rules  Print the generated import restrictions",
    "  docs   Patch the dependency flow diagram into the docs file",
    "  init   Initialize configuration file",
    "  help   Print this message or the help of the given subcommand(s)",
    "",
    "Options:",
    "  -v, --verbose          Enable verbose output",
    "  -c, --config <CONFIG>  Path to configuration file",
    "  -h, --help             Print help",
    "  -V, --version          Print version"]

/-- How the program ends: with a code, and with the error of a command that failed. -/
structure Outcome where
  code : Nat
  error : Option CommandError
  deriving DecidableEq, Repr

variable {m : Type → Type} [Monad m] [Host m]

def perform : Invocation → m Outcome
  | run config command => do
    match ← command.run config with
    | .ok () => return ⟨0, none⟩
    | .error e => return ⟨1, some e⟩
  | help => do
    Command.printLines helpLines
    return ⟨0, none⟩
  | version => do
    Host.printLine versionLine
    return ⟨0, none⟩
  | usageError => return ⟨2, none⟩

end Invocation

end FolderFlow
