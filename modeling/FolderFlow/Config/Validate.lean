import FolderFlow.Config.Basic
import FolderFlow.Config.Error
import FolderFlow.Json.Printer
import FolderFlow.Text.Substitute

/-!
# Reading a configuration from JSON

The sections are read in the order of `ConfigError.Part`, and the first fault ends the reading. A
`null` stands for a missing member, and members that are not known are passed over.
-/

namespace FolderFlow

namespace Config

/-- The placeholder that a lint-file pattern must hold, without its first character. -/
def placeholderTail : List Char :=
  ['f', 'o', 'l', 'd', 'e', 'r', '\x7d']

def placeholder : List Char :=
  '\x7b' :: placeholderTail

/-! ## Values -/

/-- A value that is there and not `null`. -/
def present (value : Option Json) : Option Json :=
  value.filter fun j => !j.isNull

/-- A string that is not blank. -/
def nonBlank? (value : Option Json) : Option String :=
  (value.bind Json.asString?).filter fun s => !decide (Text.IsBlank s)

/-- A string, if one is there at all. -/
def text? (e : ConfigError) (value : Option Json) : Except ConfigError (Option String) :=
  match present value with
  | none => .ok none
  | some (.string s) => .ok (some s)
  | some _ => .error e

def orError {α : Type} (e : ConfigError) : Option α → Except ConfigError α
  | some a => .ok a
  | none => .error e

/-- Reads every item with its index, up to the first that is at fault. -/
def eachFrom {α β : Type} (read : Nat → α → Except ConfigError β) (index : Nat) :
    List α → Except ConfigError (List β)
  | [] => .ok []
  | a :: as => do
    let b ← read index a
    let bs ← eachFrom read (index + 1) as
    return b :: bs

def each {α β : Type} (read : Nat → α → Except ConfigError β) (items : List α) :
    Except ConfigError (List β) :=
  eachFrom read 0 items

/-! ## The flow -/

def readEdgeOptions (index : Nat) (members : Members) : Except ConfigError EdgeOptions := do
  let selfOnly ← match present (Members.find? members "selfOnly") with
    | none => .ok false
    | some (.bool b) => .ok b
    | some _ => .error (.edgeOptionType index "selfOnly" "boolean")
  let label ← text? (.edgeOptionType index "label" "string") (Members.find? members "label")
  let description ←
    text? (.edgeOptionType index "description" "string") (Members.find? members "description")
  return { label, description, selfOnly }

def readEdge (index : Nat) (item : Json) : Except ConfigError Edge :=
  match item with
  | .array (first :: second :: more) => do
    let source ← orError (.edgeEndpoint index 0) (nonBlank? (some first))
    let target ← orError (.edgeEndpoint index 1) (nonBlank? (some second))
    let options ← match present more.head? with
      | none => .ok {}
      | some (.object members) => readEdgeOptions index members
      | some _ => .error (.edgeOptionsNotObject index)
    return { source, target, options }
  | _ => .error (.edgeNotTuple index)

def readFlow (value : Option Json) : Except ConfigError Flow := do
  let items ← orError .flowNotArray (value.bind Json.asArray?)
  return ⟨← each readEdge items⟩

/-- The member that holds the flow; it has an older name too. -/
def flowMember (raw : Members) : Option Json :=
  present (Members.find? raw "dependencyFlow") <|>
    present (Members.find? raw "dependencyFlowchart")

/-! ## The other sections -/

def readDocs (value : Json) : Except ConfigError DocsOptions := do
  let file ← orError (.docsField "file") (nonBlank? (value.get? "file"))
  let markerTag ← orError (.docsField "markerTag") (nonBlank? (value.get? "markerTag"))
  let content ← text? .docsContent (value.get? "content")
  return { file, markerTag, content }

/-- Puts an entry where the order of the keys wants it. -/
def insertSorted (key : String) (rules : Members) :
    List (String × Members) → List (String × Members)
  | [] => [(key, rules)]
  | (k, r) :: rest =>
    if key = k then (key, rules) :: rest
    else if Text.atMost key k then (key, rules) :: (k, r) :: rest
    else (k, r) :: insertSorted key rules rest

def readOverrideEntries :
    Members → List (String × Members) → Except ConfigError (List (String × Members))
  | [], found => .ok found
  | (folder, value) :: rest, found =>
    match value with
    | .null => readOverrideEntries rest found
    | .object rules => readOverrideEntries rest (insertSorted folder rules found)
    | _ => .error (.overrideNotObject folder)

/-- A key that is no folder is a fault before any value is looked at. -/
def readOverrides (folders : FolderSet) (value : Json) :
    Except ConfigError (List (String × Members)) := do
  let entries ← orError .overrideRulesNotObject value.asObject?
  match (Members.keys entries).find? fun key => !folders.contains key with
  | some folder => .error (.overrideUnknownFolder folder)
  | none => readOverrideEntries entries []

/-- An empty list of names is no list of names. -/
def readImportNames (index : Nat) (value : Option Json) :
    Except ConfigError (Option (List String)) :=
  match present value with
  | none => .ok none
  | some (.array []) => .ok none
  | some (.array names) => do
    let readName (name : Json) := orError (.packageImportNames index) (nonBlank? (some name))
    return some (← each (fun _ => readName) names)
  | some _ => .error (.packageImportNames index)

def readAllowedFolder (folders : FolderSet) (index : Nat) (value : Json) :
    Except ConfigError String :=
  match value with
  | .string folder =>
    if folders.contains folder then .ok folder
    else .error (.packageUnknownFolder index value.render)
  | _ => .error (.packageUnknownFolder index value.render)

def readPackageRule (folders : FolderSet) (index : Nat) (rule : Json) :
    Except ConfigError PackageRule := do
  let name ← orError (.packageName index) (nonBlank? (rule.get? "name"))
  let importNames ← readImportNames index (rule.get? "importNames")
  let allowed ← match (rule.get? "allowedInFolders").bind Json.asArray? with
    | none | some [] => .error (.packageAllowedFolders index)
    | some allowed => .ok allowed
  let allowedInFolders ← each (fun _ => readAllowedFolder folders index) allowed
  return { name, importNames, allowedInFolders }

def readPackageRules (folders : FolderSet) (value : Json) :
    Except ConfigError (List PackageRule) := do
  let items ← orError .packageRulesNotArray value.asArray?
  each (readPackageRule folders) items

def readLintFile (index : Nat) (pattern : Json) : Except ConfigError String :=
  orError (.lintFilePlaceholder index)
    ((nonBlank? (some pattern)).filter fun s => Text.occursIn placeholder s.toList)

/-- One pattern may stand without a list around it. -/
def readLintFiles (value : Option Json) : Except ConfigError (List String) :=
  match value with
  | some (.string s) => each readLintFile [.string s]
  | some (.array []) => .error .lintFilesEmpty
  | some (.array items) => each readLintFile items
  | _ => .error .lintFilesType

def readModuleLayout (value : Option Json) : Except ConfigError ModuleLayout :=
  match present value with
  | none => .ok .folder
  | some (.string "folder") => .ok .folder
  | some (.string "flat") => .ok .flat
  | some v => .error (.unknownModuleLayout v.render)

/-! ## The whole -/

/-- Reads a section that may be missing. -/
def readOptional {α : Type} (read : Json → Except ConfigError α) (value : Option Json) :
    Except ConfigError (Option α) :=
  match present value with
  | none => .ok none
  | some v => some <$> read v

def validateMembers (raw : Members) : Except ConfigError Config := do
  let appAlias ← orError .appAlias (nonBlank? (Members.find? raw "appAlias"))
  let flow ← readFlow (flowMember raw)
  let docs ← readOptional readDocs (Members.find? raw "docs")
  let overrides ← readOptional (readOverrides flow.folders) (Members.find? raw "overrideRules")
  let packageRules ←
    readOptional (readPackageRules flow.folders) (Members.find? raw "packageImportRules")
  let lintFiles ← readLintFiles (Members.find? raw "lintFiles")
  let moduleLayout ← readModuleLayout (Members.find? raw "moduleLayout")
  return {
    appAlias, flow, docs, lintFiles, moduleLayout
    overrides := overrides.getD []
    packageRules := packageRules.getD [] }

/-- The configuration that a value describes, or its first fault. -/
def validate (raw : Json) : Except ConfigError Config :=
  match raw with
  | .object members => validateMembers members
  | _ => .error .notAnObject

end Config

end FolderFlow
