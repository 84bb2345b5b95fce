import FolderFlow.Proofs.Enforcement
import FolderFlow.Proofs.RoundTrip
import FolderFlow.Proofs.TomlTables
import FolderFlow.Restriction.FlatConfig

/-!
# Overrides in the flat configuration

`FlatConfig.ofRules_keeps_overrides`: the object of a folder holds the overrides of that folder as
they are written, and the generated rule behind them. An override of the generated rule is the only
one that is lost, wherever it stands: it is taken out before the generated rule is put in, so that
the generated rule is a new key and goes to the end. What is written has no repeated keys, as holds
of all that is read from a text (`ConfigFormat.keysDistinct_of_parse?`).
-/

namespace FolderFlow

namespace Config

open Json

variable {raw : Json} {c : Config} {folder rule : String}

/-- Each folder has its rules at one place. -/
theorem existsUnique_folderRules (hfolder : folder ∈ c.folders) :
    ∃! i : Nat, ∃ r, c.folderRules[i]? = some r ∧ r.folder = folder := by
  have hplace (i : Nat) : (∃ r, c.folderRules[i]? = some r ∧ r.folder = folder) ↔
      c.folders.toList[i]? = some folder := by
    rw [← folderRules_folders, List.getElem?_map, Option.map_eq_some_iff]
  simp only [hplace]
  obtain ⟨i, hi, heq⟩ := List.getElem_of_mem (FolderSet.mem_def.mp hfolder)
  have hi? : c.folders.toList[i]? = some folder := List.getElem?_eq_some_iff.mpr ⟨hi, heq⟩
  refine ⟨i, hi?, fun j hj => ?_⟩
  exact ((List.getElem?_inj hi c.folders.nodup).mp (hi?.trans hj.symm)).symm

/-! ## Overrides as they are written -/

/-- What is written under a folder. -/
def overridesIn? (raw : Json) (folder : String) : Option Json :=
  (raw.get? "overrideRules").bind (·.get? folder)

/-- The override of a rule in a folder, as it is written. There is none in a folder that is missing
or `null`. -/
def override? (raw : Json) (folder rule : String) : Option Json :=
  (overridesIn? raw folder).bind (·.get? rule)

/-- Without repeated keys, the last object under a key is the only one. -/
theorem lastObject_iff_of_nodup {entries : Members} {key : String} {rules : Members}
    (h : (Members.keys entries).Nodup) :
    LastObject entries key rules ↔ Members.find? entries key = some (.object rules) := by
  rw [Members.find?_eq_some_iff h]
  constructor
  · rintro ⟨before, after, rfl, -⟩
    exact List.mem_append_right _ List.mem_cons_self
  · intro hmem
    obtain ⟨before, after, rfl⟩ := List.append_of_mem hmem
    refine ⟨before, after, rfl, fun other hother => ?_⟩
    rw [Members.keys, List.map_append, List.map_cons] at h
    have hnew := (List.nodup_cons.mp h.of_append_right).1
    exact hnew (List.mem_map.mpr ⟨_, hother, rfl⟩)

theorem lookup_overrides {entries : Members} {found : List (String × Members)}
    (hkeys : (Members.keys entries).Nodup) (hsorted : SortedByKey found)
    (hlast : ∀ key rules, (key, rules) ∈ found ↔ LastObject entries key rules) (folder : String) :
    found.lookup folder = (Members.find? entries folder).bind asObject? := by
  refine Option.ext fun rules => ?_
  rw [lookup_eq_some_iff_of_sortedByKey hsorted, hlast, lastObject_iff_of_nodup hkeys,
    Option.bind_eq_some_iff]
  simp only [asObject?_eq_some_iff, exists_eq_right]

/-- An accepted configuration knows just the overrides that are written. -/
theorem overridesOf_eq (hraw : raw.KeysDistinct) (h : validate raw = .ok c) (folder : String) :
    c.overridesOf folder = ((overridesIn? raw folder).bind asObject?).getD [] := by
  obtain ⟨members, rfl, hc⟩ := validate_eq_ok_iff.mp h
  obtain ⟨found, hfound, heq⟩ := hc.overrides
  rw [overridesIn?, get?_object, overridesOf, heq]
  generalize hpart : Members.find? members "overrideRules" = part at hfound ⊢
  cases hfound with
  | missing => rfl
  | null => rfl
  | there _ hdescribes =>
    obtain ⟨entries, rfl, -, hsorted, hlast⟩ := hdescribes
    have hkeys := (hraw.of_find? hpart).nodup_keys
    rw [Option.getD_some, lookup_overrides hkeys hsorted hlast]
    rfl

theorem find?_overridesOf (hraw : raw.KeysDistinct) (h : validate raw = .ok c)
    (folder rule : String) :
    Members.find? (c.overridesOf folder) rule = override? raw folder rule := by
  rw [overridesOf_eq hraw h, override?]
  cases overridesIn? raw folder with
  | none => rfl
  | some value => cases value <;> rfl

theorem nodup_keys_overridesOf (hraw : raw.KeysDistinct) (h : validate raw = .ok c)
    (folder : String) : (Members.keys (c.overridesOf folder)).Nodup := by
  rw [overridesOf_eq hraw h]
  cases hin : overridesIn? raw folder with
  | none => exact List.nodup_nil
  | some value =>
    obtain ⟨all, hall, hvalue⟩ := Option.bind_eq_some_iff.mp hin
    exact ((hraw.of_get? hall).of_get? hvalue).nodup_keys_asObject?

/-- Only a folder of the flow has overrides. -/
theorem mem_folders_of_override? (hraw : raw.KeysDistinct) (h : validate raw = .ok c)
    {value : Json} (hover : override? raw folder rule = some value) : folder ∈ c.folders := by
  rw [← find?_overridesOf hraw h, overridesOf] at hover
  obtain ⟨members, -, hc⟩ := validate_eq_ok_iff.mp h
  cases hown : c.overrides.lookup folder with
  | none =>
    rw [hown] at hover
    exact absurd hover (by simp [Members.find?])
  | some rules =>
    exact hc.mem_folders ((lookup_eq_some_iff_of_sortedByKey hc.sortedByKey).mp hown)

end Config

namespace FlatConfig

variable {raw : Json} {c : Config} {r : FolderRules}

/-! ## The object of one folder -/

/-- A pattern as it is written. -/
def patternObject (p : PatternRestriction) : Json :=
  .object [("group", .array (p.group.map .string)), ("message", .string p.message)]

/-- A package as it is written. Where it is forbidden as a whole, no exports are listed. -/
def pathObject (p : PathRestriction) : Json :=
  match p.importNames with
  | some names => .object [("name", .string p.name), ("importNames", .array (names.map .string)),
      ("message", .string p.message)]
  | none => .object [("name", .string p.name), ("message", .string p.message)]

/-- The options of the generated rule. There are no paths among them where no package is
forbidden. -/
def options (r : RuleSet) : Members :=
  let patterns := ("patterns", Json.array (r.patterns.map patternObject))
  if r.paths = [] then [patterns]
  else [patterns, ("paths", .array (r.paths.map pathObject))]

/-- The overrides of the folder and the generated rule behind them, each once. -/
structure KeepsOverrides (raw : Json) (r : FolderRules) (rules : Members) : Prop where
  nodup : (Members.keys rules).Nodup
  last : rules.getLast? =
    some (restrictedImports, .array [.string "error", .object (options r.rules)])
  others : ∀ rule ≠ restrictedImports,
    Members.find? rules rule = Config.override? raw r.folder rule

/-- The object of a folder. -/
def IsEntry (raw : Json) (r : FolderRules) (object : Json) : Prop :=
  ∃ rules, object = .object [("files", .array (r.files.map .string)), ("rules", .object rules)] ∧
    KeepsOverrides raw r rules

/-- The rules of the object hold this one with this value. -/
def Binds (object : Json) (rule : String) (value : Json) : Prop :=
  (object.get? "rules").bind (·.get? rule) = some value

theorem toJson_eq_patternObject : PatternRestriction.toJson = patternObject := by
  funext p
  rfl

theorem toJson_eq_pathObject : PathRestriction.toJson = pathObject := by
  funext p
  unfold PathRestriction.toJson pathObject
  cases p.importNames <;> rfl

theorem members_eq_options (r : RuleSet) : r.members = options r := by
  unfold RuleSet.members options
  rw [toJson_eq_patternObject, toJson_eq_pathObject]
  cases r.paths <;> rfl

/-- With the override of its name taken out, the generated rule is new and goes to the end. -/
theorem rules_eq_append (h : (Members.keys r.overrides).Nodup) :
    rules r = Members.remove r.overrides restrictedImports ++
      [(restrictedImports, .array [.string "error", .object (options r.rules)])] := by
  rw [rules, Members.insert_of_notMem (Members.notMem_keys_remove h), RuleSet.toJson,
    members_eq_options]

theorem find?_rules_of_ne (h : (Members.keys r.overrides).Nodup) {rule : String}
    (hne : rule ≠ restrictedImports) :
    Members.find? (rules r) rule = Members.find? r.overrides rule := by
  rw [rules, Members.find?_insert_of_ne hne, Members.find?_remove_of_ne h hne]

theorem keepsOverrides_rules (hraw : raw.KeysDistinct) (h : Config.validate raw = .ok c)
    (hr : r ∈ c.folderRules) : KeepsOverrides raw r (rules r) := by
  obtain ⟨folder, -, rfl⟩ := Config.mem_folderRules.mp hr
  have hkeys := Config.nodup_keys_overridesOf hraw h folder
  refine ⟨Members.nodup_keys_insert (Members.nodup_keys_remove hkeys), ?_, ?_⟩
  · rw [rules_eq_append hkeys, List.getLast?_concat]
  · intro rule hne
    rw [find?_rules_of_ne hkeys hne]
    exact Config.find?_overridesOf hraw h folder rule

theorem binds_entry_iff (hraw : raw.KeysDistinct) (h : Config.validate raw = .ok c)
    (hr : r ∈ c.folderRules) {rule : String} (hne : rule ≠ restrictedImports) (value : Json) :
    Binds (entry r) rule value ↔ Config.override? raw r.folder rule = some value := by
  rw [← (keepsOverrides_rules hraw h hr).others rule hne]
  rfl

/-! ## All folders -/

/-- **No override is lost.** Of an accepted configuration there is one object for each folder, in
folder order. Its rules have distinct keys. The last of them is the generated one, with the patterns
and the paths of the folder; the paths are missing exactly when there are none. Every other rule is
there just when it is written as an override of the folder, and has the value written there. So each
override of another rule stands in exactly one object. -/
theorem ofRules_keeps_overrides (hraw : raw.KeysDistinct) (h : Config.validate raw = .ok c) :
    FirstSeen c.flow.endpoints (c.folderRules.map FolderRules.folder) ∧
    ∃ objects, ofRules c.folderRules = .array objects ∧
      List.Forall₂ (IsEntry raw) c.folderRules objects ∧
      ∀ folder rule value, rule ≠ restrictedImports →
        Config.override? raw folder rule = some value →
        ∃! i : Nat, ∃ r object, c.folderRules[i]? = some r ∧ objects[i]? = some object ∧
          r.folder = folder ∧ Binds object rule value := by
  refine ⟨?_, c.folderRules.map entry, rfl, ?_, ?_⟩
  · rw [Config.folderRules_folders]
    exact c.flow.firstSeen_folders
  · rw [List.forall₂_map_right_iff, List.forall₂_same]
    intro r hr
    exact ⟨rules r, rfl, keepsOverrides_rules hraw h hr⟩
  · intro folder rule value hne hover
    have hfolder := Config.mem_folders_of_override? hraw h hover
    obtain ⟨i, ⟨r, hr, rfl⟩, hunique⟩ := Config.existsUnique_folderRules hfolder
    refine ⟨i, ⟨r, entry r, hr, ?_, rfl, ?_⟩, ?_⟩
    · rw [List.getElem?_map, hr, Option.map_some]
    · exact (binds_entry_iff hraw h (List.mem_of_getElem? hr) hne value).mpr hover
    · rintro j ⟨r', object, hr', -, hsame, -⟩
      exact hunique j ⟨r', hr', hsame⟩

/-- The folder `a` overrides the generated rule, and behind it a rule by `null`; `b` is `null`. -/
def overridingText : String :=
  "\x7b\"appAlias\":\"@\",\"dependencyFlow\":[[\"a\",\"b\"]],\"lintFiles\":\"\x7bfolder\x7d\"," ++
    "\"overrideRules\":\x7b\"b\":null,\"a\":\x7b" ++
    "\"no-restricted-imports\":\"off\",\"no-console\":null\x7d\x7d\x7d"

def overridingValue : Json :=
  .object [("appAlias", .string "@"),
    ("dependencyFlow", .array [.array [.string "a", .string "b"]]),
    ("lintFiles", .string "\x7bfolder\x7d"),
    ("overrideRules", .object [("b", .null),
      ("a", .object [("no-restricted-imports", .string "off"), ("no-console", .null)])])]

theorem parse?_overridingText : Json.parse? overridingText = some overridingValue := by
  cbv

theorem overriding_rule_kept : ∃ c,
    Json.parse? overridingText = some overridingValue ∧ overridingValue.KeysDistinct ∧
    Config.validate overridingValue = .ok c ∧
    Config.override? overridingValue "a" "no-console" = some .null ∧
    ∃ objects, ofRules c.folderRules = .array objects ∧
      List.Forall₂ (IsEntry overridingValue) c.folderRules objects ∧
      ∃! i : Nat, ∃ r object, c.folderRules[i]? = some r ∧ objects[i]? = some object ∧
        r.folder = "a" ∧ Binds object "no-console" .null := by
  have hread : ConfigFormat.json.parse? overridingText = some overridingValue :=
    parse?_overridingText
  have hraw := ConfigFormat.keysDistinct_of_parse? hread
  obtain ⟨c, hc⟩ : ∃ c, Config.validate overridingValue = .ok c := ⟨_, rfl⟩
  have hover : Config.override? overridingValue "a" "no-console" = some .null := rfl
  obtain ⟨-, objects, hobjects, hentries, hunique⟩ := ofRules_keeps_overrides hraw hc
  refine ⟨c, parse?_overridingText, hraw, hc, hover, objects, hobjects, hentries, ?_⟩
  exact hunique "a" "no-console" .null (by decide) hover

end FlatConfig

end FolderFlow
