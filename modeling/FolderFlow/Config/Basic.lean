import FolderFlow.Flow.Basic

/-!
# Configurations

What a project says about its folders, and the JSON form in which it is written down again: parts
that are not set are left out, overrides stand in the order of their folders.
-/

namespace FolderFlow

/-- Whether a module is a folder with an index file, or a file. -/
inductive ModuleLayout where
  | folder
  | flat
  deriving DecidableEq, Repr

namespace ModuleLayout

def name : ModuleLayout → String
  | folder => "folder"
  | flat => "flat"

/-- The imports that leave the module towards a sibling layer. -/
def upwardGlob : ModuleLayout → String
  | folder => "../*/**"
  | flat => "../**"

end ModuleLayout

/-- The docs file that shows the flow, between markers named by a tag. -/
structure DocsOptions where
  file : String
  markerTag : String
  content : Option String
  deriving DecidableEq, Repr

/-- A package, or some of its exports, reserved for a few folders. -/
structure PackageRule where
  name : String
  importNames : Option (List String)
  allowedInFolders : List String
  deriving DecidableEq, Repr

def PackageRule.allows (rule : PackageRule) (folder : String) : Bool :=
  rule.allowedInFolders.contains folder

structure Config where
  appAlias : String
  flow : Flow
  docs : Option DocsOptions
  lintFiles : List String
  moduleLayout : ModuleLayout
  /-- Linter rules by folder, in the order of the folder names. -/
  overrides : List (String × Members)
  packageRules : List PackageRule

namespace Config

def folders (c : Config) : FolderSet :=
  c.flow.folders

/-- The linter rules that a folder adds, none for most. -/
def overridesOf (c : Config) (folder : String) : Members :=
  (c.overrides.lookup folder).getD []

end Config

/-! ## JSON form -/

def DocsOptions.toJson (docs : DocsOptions) : Json :=
  .ofMembers [
    ("file", some (.string docs.file)),
    ("markerTag", some (.string docs.markerTag)),
    ("content", docs.content.map .string)]

def PackageRule.toJson (rule : PackageRule) : Json :=
  .ofMembers [
    ("name", some (.string rule.name)),
    ("importNames", rule.importNames.map .strings),
    ("allowedInFolders", some (.strings rule.allowedInFolders))]

def Config.toJson (c : Config) : Json :=
  .ofMembers [
    ("appAlias", some (.string c.appAlias)),
    ("dependencyFlow", some c.flow.toJson),
    ("docs", c.docs.map DocsOptions.toJson),
    ("lintFiles", some (.strings c.lintFiles)),
    ("moduleLayout", some (.string c.moduleLayout.name)),
    ("overrideRules",
      if c.overrides.isEmpty then none
      else some (.object (c.overrides.map fun (folder, rules) => (folder, .object rules)))),
    ("packageImportRules",
      if c.packageRules.isEmpty then none
      else some (.array (c.packageRules.map PackageRule.toJson)))]

end FolderFlow
