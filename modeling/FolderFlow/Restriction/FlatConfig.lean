import FolderFlow.Restriction.Basic

/-!
# Flat linter configuration

The generated restrictions as an ESLint flat configuration: one object for each folder, in which the
generated rule stands last and takes the place of an override of the same name.
-/

namespace FolderFlow.FlatConfig

/-- The linter rule that carries the generated restrictions. -/
def restrictedImports : String :=
  "no-restricted-imports"

/-- The overrides of the folder and behind them the generated rule. -/
def rules (r : FolderRules) : Members :=
  Members.insert (Members.remove r.overrides restrictedImports) restrictedImports
    (.array [.string "error", r.rules.toJson])

def entry (r : FolderRules) : Json :=
  .object [("files", .strings r.files), ("rules", .object (rules r))]

def ofRules (all : List FolderRules) : Json :=
  .array (all.map entry)

/-- An override of the generated rule has no effect. -/
def overridesGenerated (r : FolderRules) : Bool :=
  (Members.find? r.overrides restrictedImports).isSome

end FolderFlow.FlatConfig
