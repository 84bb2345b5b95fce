/-!
# What can be wrong with a configuration

One constructor for each cause, with the message, the code of the section at fault and, where there
is one, a hint for mending it.
-/

namespace FolderFlow

inductive ConfigError where
  | notAnObject
  | appAlias
  | flowNotArray
  | edgeNotTuple (index : Nat)
  | edgeEndpoint (index position : Nat)
  | edgeOptionsNotObject (index : Nat)
  | edgeOptionType (index : Nat) (key expected : String)
  | docsField (field : String)
  | docsContent
  | overrideRulesNotObject
  | overrideUnknownFolder (folder : String)
  | overrideNotObject (folder : String)
  | packageRulesNotArray
  | packageName (index : Nat)
  | packageImportNames (index : Nat)
  | packageAllowedFolders (index : Nat)
  | packageUnknownFolder (index : Nat) (folder : String)
  | lintFilesType
  | lintFilesEmpty
  | lintFilePlaceholder (index : Nat)
  | unknownModuleLayout (value : String)
  deriving DecidableEq, Repr

namespace ConfigError

/-- The parts of a configuration in the order in which they are checked. -/
inductive Part where
  | root
  | appAlias
  | flow
  | docs
  | overrideRules
  | packageRules
  | lintFiles
  | moduleLayout
  deriving DecidableEq, Repr

def Part.code : Part → String
  | root => "kekkai::config::root"
  | appAlias => "kekkai::config::app_alias"
  | flow => "kekkai::config::dependency_flow"
  | docs => "kekkai::config::docs"
  | overrideRules => "kekkai::config::override_rules"
  | packageRules => "kekkai::config::package_import_rules"
  | lintFiles => "kekkai::config::lint_files"
  | moduleLayout => "kekkai::config::module_layout"

def part : ConfigError → Part
  | notAnObject => .root
  | appAlias => .appAlias
  | flowNotArray | edgeNotTuple _ | edgeEndpoint .. | edgeOptionsNotObject _
  | edgeOptionType .. => .flow
  | docsField _ | docsContent => .docs
  | overrideRulesNotObject | overrideUnknownFolder _ | overrideNotObject _ => .overrideRules
  | packageRulesNotArray | packageName _ | packageImportNames _ | packageAllowedFolders _
  | packageUnknownFolder .. => .packageRules
  | lintFilesType | lintFilesEmpty | lintFilePlaceholder _ => .lintFiles
  | unknownModuleLayout _ => .moduleLayout

def message : ConfigError → String
  | notAnObject => "configuration must be a JSON object"
  | appAlias => "appAlias is required and must be a non-empty string"
  | flowNotArray => "dependencyFlow must be an array"
  | edgeNotTuple index => s!"dependencyFlow[{index}] must be a tuple [from, to, options?]"
  | edgeEndpoint index position =>
    s!"dependencyFlow[{index}][{position}] must be a non-empty string"
  | edgeOptionsNotObject index =>
    s!"dependencyFlow[{index}][2] must be an options object if provided"
  | edgeOptionType index key expected =>
    s!"dependencyFlow[{index}][2].{key} must be a {expected}"
  | docsField field =>
    s!"docs.{field} is required and must be a non-empty string when docs is provided"
  | docsContent => "docs.content must be a string"
  | overrideRulesNotObject => "overrideRules must be an object keyed by folder"
  | overrideUnknownFolder folder => s!"overrideRules.{folder} is not a folder of dependencyFlow"
  | overrideNotObject folder => s!"overrideRules.{folder} must be an object"
  | packageRulesNotArray => "packageImportRules must be an array"
  | packageName index => s!"packageImportRules[{index}].name must be a non-empty string"
  | packageImportNames index =>
    s!"packageImportRules[{index}].importNames must be an array of non-empty strings"
  | packageAllowedFolders index =>
    s!"packageImportRules[{index}].allowedInFolders must be a non-empty array"
  | packageUnknownFolder index folder =>
    s!"packageImportRules[{index}].allowedInFolders contains unknown folder {folder}"
  | lintFilesType => "lintFiles must be a string or an array of strings"
  | lintFilesEmpty => "lintFiles must not be empty"
  | lintFilePlaceholder index =>
    s!"lintFiles[{index}] must be a non-empty string containing \x7bfolder\x7d"
  | unknownModuleLayout value => s!"moduleLayout must be \"folder\" or \"flat\", got {value}"

def help? : ConfigError → Option String
  | appAlias => some "e.g. \"appAlias\": \"~app\""
  | overrideUnknownFolder _ =>
    some "override keys must appear as an endpoint in dependencyFlow"
  | packageUnknownFolder .. =>
    some "allowed folders must appear as an endpoint in dependencyFlow"
  | _ => none

end ConfigError

end FolderFlow
