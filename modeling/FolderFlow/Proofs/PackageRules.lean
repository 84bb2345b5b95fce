import FolderFlow.Proofs.FlatConfig

/-!
# Packages outside their folders

`Config.paths_enforce_packageRules`: in a folder there is one restriction for each package rule that
does not allow the folder, and the restrictions follow the rules. A rule whose list of exports is
empty is read as a rule without a list, and a restriction without a list forbids the whole package,
so that an empty list means the same wherever it is met.
-/

namespace FolderFlow

/-- The restriction forbids what the rule reserves: the exports that it names, in their order, or
the whole package where it names none. -/
inductive Restricts (rule : PackageRule) : PathRestriction → Prop where
  | exports {names : List String} : rule.importNames = some names → names ≠ [] →
      Restricts rule {
        name := rule.name
        importNames := some names
        message := "Do not import " ++ ", ".intercalate names ++ " from \"" ++ rule.name ++
          "\" in this layer." }
  | package : (∀ names, rule.importNames = some names → names = []) →
      Restricts rule {
        name := rule.name
        importNames := none
        message := "Do not import \"" ++ rule.name ++ "\" in this layer." }

/-- There is one restriction for each rule that does not allow the folder, in the order of the
rules. -/
def RuleSet.Enforces (set : RuleSet) (rules : List PackageRule) (folder : String) : Prop :=
  List.Forall₂ Restricts (rules.filter fun rule => folder ∉ rule.allowedInFolders) set.paths

/-! ## Building the restrictions -/

namespace PathRestriction

variable {rule : PackageRule}

theorem ofRule_of_names {names : List String} (h : rule.importNames = some names)
    (hne : names ≠ []) : ofRule rule = {
      name := rule.name
      importNames := some names
      message := "Do not import " ++ ", ".intercalate names ++ " from \"" ++ rule.name ++
        "\" in this layer." } := by
  have hempty : names.isEmpty = false := by
    rw [List.isEmpty_eq_false_iff]
    exact hne
  rw [ofRule, h, Option.getD_some, Option.filter_some, hempty, Bool.not_false, if_pos rfl]
  congr 1
  have hfrom (rest : String) : " from " ++ ("\"" ++ rest) = " from \"" ++ rest :=
    String.append_assoc.symm
  unfold forbidden commaList
  simp only [hempty, Bool.false_eq_true, if_false, String.append_assoc, hfrom]

theorem ofRule_of_no_names (h : ∀ names, rule.importNames = some names → names = []) :
    ofRule rule = {
      name := rule.name
      importNames := none
      message := "Do not import \"" ++ rule.name ++ "\" in this layer." } := by
  cases hnames : rule.importNames with
  | none =>
    rw [ofRule, hnames]
    rfl
  | some names =>
    obtain rfl := h names hnames
    rw [ofRule, hnames]
    rfl

end PathRestriction

theorem restricts_ofRule (rule : PackageRule) : Restricts rule (.ofRule rule) := by
  by_cases h : ∀ names, rule.importNames = some names → names = []
  · rw [PathRestriction.ofRule_of_no_names h]
    exact .package h
  · obtain ⟨names, h⟩ := not_forall.mp h
    obtain ⟨hnames, hne⟩ := Classical.not_imp.mp h
    rw [PathRestriction.ofRule_of_names hnames hne]
    exact .exports hnames hne

namespace RuleSet

variable {folder : String} {rules : List PackageRule}

theorem enforces_build (folder : String) (disallowed : List String) (rules : List PackageRule)
    (appAlias : String) (layout : ModuleLayout) :
    (build folder disallowed rules appAlias layout).Enforces rules folder := by
  have hkept : rules.filter (fun rule => folder ∉ rule.allowedInFolders) =
      rules.filter fun rule => !rule.allows folder := by
    refine List.filter_congr fun rule _ => ?_
    rw [decide_not, PackageRule.allows, List.contains_eq_mem]
  rw [Enforces, hkept, build, List.forall₂_map_right_iff, List.forall₂_same]
  intro rule _
  exact restricts_ofRule rule

variable {set : RuleSet}

theorem Enforces.exists_restriction (h : set.Enforces rules folder) {rule : PackageRule}
    (hrule : rule ∈ rules) (hout : folder ∉ rule.allowedInFolders) :
    ∃ p ∈ set.paths, Restricts rule p :=
  exists_of_forall₂ h (List.mem_filter.mpr ⟨hrule, decide_eq_true hout⟩)

theorem Enforces.paths_ne_nil_iff (h : set.Enforces rules folder) :
    set.paths ≠ [] ↔ ∃ rule ∈ rules, folder ∉ rule.allowedInFolders := by
  rw [← List.length_pos_iff, ← h.length_eq, List.length_filter_pos_iff]
  simp

end RuleSet

/-! ## The paths that are written -/

namespace FlatConfig

/-- The paths among the options of the generated rule. -/
def paths? (object : Json) : Option Json :=
  (((object.get? "rules").bind (·.get? restrictedImports)).bind fun rule =>
    (rule.asArray?.getD [])[1]?).bind (·.get? "paths")

theorem find?_options (set : RuleSet) : Members.find? (options set) "paths" =
    if set.paths = [] then none else some (.array (set.paths.map pathObject)) := by
  unfold options
  split <;> rfl

theorem paths?_entry (r : FolderRules) : paths? (entry r) =
    if r.rules.paths = [] then none
    else some (.array (r.rules.paths.map pathObject)) := by
  rw [← find?_options, ← members_eq_options]
  have hrule : (Json.object (rules r)).get? restrictedImports =
      some (.array [.string "error", r.rules.toJson]) := Members.find?_insert_self
  rw [paths?, show (entry r).get? "rules" = some (.object (rules r)) from rfl, Option.bind_some,
    hrule]
  rfl

end FlatConfig

/-- The restrictions of a folder enforce the rules, and are written as paths just when there are
some. -/
structure FolderRules.Reserves (r : FolderRules) (all : List PackageRule) : Prop where
  enforces : r.rules.Enforces all r.folder
  written_iff : (FlatConfig.paths? (FlatConfig.entry r)).isSome ↔
    ∃ rule ∈ all, r.folder ∉ rule.allowedInFolders
  paths_eq : ∀ paths, FlatConfig.paths? (FlatConfig.entry r) = some paths →
    paths = .array (r.rules.paths.map FlatConfig.pathObject)

theorem FolderRules.reserves_of_build {r : FolderRules} {disallowed : List String}
    {all : List PackageRule} {appAlias : String} {layout : ModuleLayout}
    (h : r.rules = .build r.folder disallowed all appAlias layout) : r.Reserves all := by
  have henforces : r.rules.Enforces all r.folder := by
    rw [h]
    exact RuleSet.enforces_build _ _ _ _ _
  have hpaths := FlatConfig.paths?_entry r
  refine ⟨henforces, ?_, ?_⟩
  · rw [← henforces.paths_ne_nil_iff, hpaths]
    split <;> simp_all
  · intro paths hsome
    rw [hpaths] at hsome
    split at hsome
    · simp at hsome
    · exact (Option.some.inj hsome).symm

/-! ## Accepted configurations -/

namespace Config

variable {raw : Json} {c : Config} {rule : PackageRule}

theorem Describes.exists_packageRule {raw : Members} (h : Describes raw c)
    (hrule : rule ∈ c.packageRules) : ∃ j, DescribesPackageRule (· ∈ c.folders) j rule := by
  rcases eq_or_exists_of_describesOr h.packageRules with hnone | ⟨_, hlist⟩
  · rw [hnone] at hrule
    exact absurd hrule List.not_mem_nil
  · exact exists_of_describesList hlist hrule

/-- A list of exports that is kept is not empty. -/
theorem importNames_ne_nil {part : Option Json} {names : Option (List String)}
    (h : DescribesImportNames part names) : names ≠ some [] := by
  obtain ⟨found, -, rfl⟩ := h
  intro hnil
  have hkept := (Option.filter_eq_some_iff.mp hnil).2
  exact absurd hkept (by simp)

/-- Some folder may import what is reserved. -/
theorem exists_allowed_folder {j : Json} {known : String → Prop}
    (h : DescribesPackageRule known j rule) : ∃ folder ∈ rule.allowedInFolders, known folder := by
  obtain ⟨-, -, part, -, hne, hlist⟩ := h
  obtain ⟨folder, hfolder⟩ := List.exists_mem_of_ne_nil _ hne
  obtain ⟨item, -, hknown⟩ := exists_of_describesList hlist hfolder
  exact ⟨folder, hfolder, hknown⟩

/-- **Packages are reserved.** However the rules of a folder are put together, they have one
restriction for each package rule that does not allow the folder, in the order of the rules, and it
forbids what that rule reserves; an empty list of exports stands for the whole package. Paths are
written just when some rule does not allow the folder. In an accepted configuration this holds in
every folder. No rule has an empty list of exports there, each is lifted in some folder, and is in
force in every folder that it does not allow. -/
theorem paths_enforce_packageRules (h : validate raw = .ok c) :
    (∀ r : FolderRules, ∀ disallowed rules appAlias layout,
      r.rules = .build r.folder disallowed rules appAlias layout → r.Reserves rules) ∧
    c.folderRules.map FolderRules.folder = c.folders.toList ∧
    (∀ r ∈ c.folderRules, r.Reserves c.packageRules) ∧
    ∀ rule ∈ c.packageRules, rule.importNames ≠ some [] ∧
      (∃ r ∈ c.folderRules, r.folder ∈ rule.allowedInFolders) ∧
      ∀ r ∈ c.folderRules, r.folder ∉ rule.allowedInFolders →
        ∃ p ∈ r.rules.paths, Restricts rule p := by
  have hreserves : ∀ r ∈ c.folderRules, r.Reserves c.packageRules := by
    intro r hr
    obtain ⟨folder, -, rfl⟩ := mem_folderRules.mp hr
    exact FolderRules.reserves_of_build rfl
  refine ⟨fun _ _ _ _ _ => FolderRules.reserves_of_build, folderRules_folders c, hreserves, ?_⟩
  intro rule hrule
  obtain ⟨members, -, hc⟩ := validate_eq_ok_iff.mp h
  obtain ⟨j, hj⟩ := hc.exists_packageRule hrule
  obtain ⟨folder, hallowed, hfolder⟩ := exists_allowed_folder hj
  refine ⟨importNames_ne_nil hj.2.1, ?_, ?_⟩
  · exact ⟨c.rulesOf folder, mem_folderRules.mpr ⟨folder, hfolder, rfl⟩, hallowed⟩
  · intro r hr hout
    exact (hreserves r hr).enforces.exists_restriction hrule hout

/-- `react` is reserved as a whole by an empty list, and two exports of `lodash` by name. -/
def reservingValue : Json :=
  .object [
    ("appAlias", .string "@"),
    ("dependencyFlow", .array [.array [.string "app", .string "ui"],
      .array [.string "ui", .string "core"]]),
    ("lintFiles", .string "\x7bfolder\x7d"),
    ("packageImportRules", .array [
      .object [("name", .string "react"), ("importNames", .array []),
        ("allowedInFolders", .array [.string "ui", .string "app"])],
      .object [("name", .string "lodash"),
        ("importNames", .array [.string "map", .string "zip"]),
        ("allowedInFolders", .array [.string "core", .string "app"])]])]

def reservedPackages : Config :=
  { bare "@" [{ source := "app", target := "ui" }, { source := "ui", target := "core" }] with
    lintFiles := ["\x7bfolder\x7d"]
    packageRules := [⟨"react", none, ["ui", "app"]⟩,
      ⟨"lodash", some ["map", "zip"], ["core", "app"]⟩] }

theorem reserved_in_core : validate reservingValue = .ok reservedPackages ∧
    ∃ r ∈ reservedPackages.folderRules, r.folder = "core" ∧
      r.rules.Enforces reservedPackages.packageRules "core" ∧
      (FlatConfig.paths? (FlatConfig.entry r)).isSome ∧
      ∃ p ∈ r.rules.paths, Restricts ⟨"react", none, ["ui", "app"]⟩ p := by
  have h : validate reservingValue = .ok reservedPackages := rfl
  obtain ⟨-, -, hfolders, hrules⟩ := paths_enforce_packageRules h
  have hcore : "core" ∈ reservedPackages.folders := Flow.mem_folders.mpr (by decide)
  have hr := mem_folderRules.mpr ⟨"core", hcore, rfl⟩
  have hreserves := hfolders _ hr
  have hreact : ⟨"react", none, ["ui", "app"]⟩ ∈ reservedPackages.packageRules :=
    List.mem_cons_self
  have hout : "core" ∉ ["ui", "app"] := by decide
  refine ⟨h, _, hr, rfl, hreserves.enforces, ?_, (hrules _ hreact).2.2 _ hr hout⟩
  exact hreserves.written_iff.mpr ⟨_, hreact, hout⟩

end Config

end FolderFlow
