import FolderFlow.Config.Basic
import FolderFlow.Config.Validate
import FolderFlow.Flow.Reach

/-!
# Import restrictions

What a linter is told to reject in each folder: groups of import globs and packages, each with a
message. The globs keep a module from leaving its folder other than by the project alias, from
importing its own layer and from importing folders that the flow does not allow.
-/

namespace FolderFlow

/-- Import globs rejected with one message. -/
structure PatternRestriction where
  group : List String
  message : String
  deriving DecidableEq, Repr

/-- A package rejected as a whole, or only some of its exports. -/
structure PathRestriction where
  name : String
  importNames : Option (List String)
  message : String
  deriving DecidableEq, Repr

structure RuleSet where
  patterns : List PatternRestriction
  paths : List PathRestriction
  deriving DecidableEq, Repr

/-- All that is generated for one folder. -/
structure FolderRules where
  folder : String
  files : List String
  disallowed : List String
  rules : RuleSet
  overrides : Members

/-! ## Patterns -/

def redundantSegments : PatternRestriction where
  group := ["./../**", "././**"]
  message := "Redundant relative path segments (././, ./../) are not allowed. " ++
    "They bypass structural import rules."

def upwardImports (layout : ModuleLayout) : PatternRestriction where
  group := [layout.upwardGlob]
  message := "Do not import from upper-level directories. " ++
    "Use the project alias to follow the dependency flow."

/-- The modules of a folder, by way of the alias without the slashes at its end. -/
def aliasGlob (appAlias folder : String) : String :=
  String.ofList ((appAlias.toList.reverse.dropWhile (· == '/')).reverse) ++ "/" ++ folder ++ "/**"

def sameLayer (appAlias folder : String) : PatternRestriction where
  group := [aliasGlob appAlias folder]
  message := "Do not import modules from the same layer. " ++
    "Extract shared logic into a lower-level folder if needed."

def folderFlow (appAlias : String) (disallowed : List String) : PatternRestriction where
  group := disallowed.map (aliasGlob appAlias)
  message := "This import violates the folder dependency rule. " ++
    "Only import from allowed lower-level folders."

/-! ## Packages -/

/-- Lists of names are written with a comma and a space. -/
def commaList (names : List String) : String :=
  ", ".intercalate names

namespace PathRestriction

def forbidden (names : List String) (package : String) : String :=
  let what := if names.isEmpty then "" else commaList names ++ " from "
  "Do not import " ++ what ++ "\"" ++ package ++ "\" in this layer."

/-- Forbids what the rule reserves; an empty list of names stands for the whole package. -/
def ofRule (rule : PackageRule) : PathRestriction where
  name := rule.name
  importNames := rule.importNames.filter fun names => !names.isEmpty
  message := forbidden (rule.importNames.getD []) rule.name

def isPartial (p : PathRestriction) : Bool :=
  p.importNames.isSome

end PathRestriction

/-! ## Rules of a folder -/

/-- The restrictions of one folder, given the folders that it may not import. -/
def RuleSet.build (folder : String) (disallowed : List String) (packageRules : List PackageRule)
    (appAlias : String) (layout : ModuleLayout) : RuleSet where
  patterns :=
    [redundantSegments, upwardImports layout, sameLayer appAlias folder] ++
      if disallowed.isEmpty then [] else [folderFlow appAlias disallowed]
  paths := (packageRules.filter fun rule => !rule.allows folder).map PathRestriction.ofRule

/-- The lint-file patterns with the folder put in for the placeholder. -/
def lintFilesFor (folder : String) (lintFiles : List String) : List String :=
  lintFiles.map (Text.substitute '\x7b' Config.placeholderTail folder)

namespace Config

def rulesOf (c : Config) (folder : String) : FolderRules :=
  let disallowed := c.flow.disallowedImports c.folders folder
  { folder
    files := lintFilesFor folder c.lintFiles
    disallowed
    rules := .build folder disallowed c.packageRules c.appAlias c.moduleLayout
    overrides := c.overridesOf folder }

/-- The rules of every folder, in folder order. -/
def folderRules (c : Config) : List FolderRules :=
  c.folders.toList.map c.rulesOf

end Config

/-! ## JSON form -/

def PatternRestriction.toJson (p : PatternRestriction) : Json :=
  .object [("group", .strings p.group), ("message", .string p.message)]

def PathRestriction.toJson (p : PathRestriction) : Json :=
  .ofMembers [
    ("name", some (.string p.name)),
    ("importNames", p.importNames.map .strings),
    ("message", some (.string p.message))]

/-- The options of the linter rule. -/
def RuleSet.members (r : RuleSet) : Members :=
  ("patterns", .array (r.patterns.map PatternRestriction.toJson)) ::
    if r.paths.isEmpty then [] else [("paths", .array (r.paths.map PathRestriction.toJson))]

def RuleSet.toJson (r : RuleSet) : Json :=
  .object r.members

def FolderRules.toJson (r : FolderRules) : Json :=
  .ofMembers [
    ("folder", some (.string r.folder)),
    ("files", some (.strings r.files)),
    ("disallowed", some (.strings r.disallowed)),
    ("rules", some r.rules.toJson),
    ("overrides", if r.overrides.isEmpty then none else some (.object r.overrides))]

end FolderFlow
