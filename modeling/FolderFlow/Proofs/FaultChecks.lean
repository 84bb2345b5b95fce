import FolderFlow.Proofs.FirstFault
import FolderFlow.Proofs.Validate

/-!
# The checks of a configuration

`Config.checks` lists all that is asked of a configuration, in the order in which it is asked: the
sections in the order of `ConfigError.Part`, in a section what is asked of it as a whole, and then
what is asked of each of its items in turn. `Config.reports_validate`: reading a configuration fails
with the fault of the first check that does not hold.

The checks speak of the value alone, in the words of the grammar. There is one lemma for each
reader, which says that it reports what is asked of its part.
-/

namespace FolderFlow

namespace Json

def IsObject (j : Json) : Prop :=
  ∃ members, j = .object members

def IsArray (j : Json) : Prop :=
  ∃ items, j = .array items

/-- The items of an array, and none of anything else. -/
def items : Json → List Json
  | .array items => items
  | _ => []

/-- The members of an object, and none of anything else. -/
def entries : Json → Members
  | .object members => members
  | _ => []

end Json

/-- The parts in the order in which they are checked. -/
def ConfigError.Part.inOrder : List Part :=
  [.root, .appAlias, .flow, .docs, .overrideRules, .packageRules, .lintFiles, .moduleLayout]

namespace Config

open Json
open ConfigError (Part)

/-! ## What is asked -/

section Checks

variable (known : String → Prop) (index : Nat)

def optionsChecks (options : Option Json) : List Check :=
  [⟨IsOptional IsObject options, .edgeOptionsNotObject index⟩,
    ⟨IsOptional IsBool (options.bind (get? · "selfOnly")),
      .edgeOptionType index "selfOnly" "boolean"⟩,
    ⟨IsOptional IsString (options.bind (get? · "label")), .edgeOptionType index "label" "string"⟩,
    ⟨IsOptional IsString (options.bind (get? · "description")),
      .edgeOptionType index "description" "string"⟩]

def edgeChecks (edge : Json) : List Check :=
  [⟨2 ≤ edge.items.length, .edgeNotTuple index⟩,
    ⟨IsRequired IsName edge.items[0]?, .edgeEndpoint index 0⟩,
    ⟨IsRequired IsName edge.items[1]?, .edgeEndpoint index 1⟩] ++
  optionsChecks index edge.items[2]?

def docsChecks (docs : Option Json) : List Check :=
  [⟨IsOptional (fun j => IsRequired IsName (j.get? "file")) docs, .docsField "file"⟩,
    ⟨IsOptional (fun j => IsRequired IsName (j.get? "markerTag")) docs, .docsField "markerTag"⟩,
    ⟨IsOptional (fun j => IsOptional IsString (j.get? "content")) docs, .docsContent⟩]

/-- All keys are looked at before any value. -/
def overridesChecks (overrides : Option Json) : List Check :=
  ⟨IsOptional IsObject overrides, .overrideRulesNotObject⟩ ::
    ((overrides.getD .null).entries.map fun entry =>
      ⟨known entry.1, .overrideUnknownFolder entry.1⟩) ++
    ((overrides.getD .null).entries.map fun entry =>
      ⟨IsOverride entry.2, .overrideNotObject entry.1⟩)

def allowedFoldersChecks (allowed : Option Json) : List Check :=
  ⟨IsRequired (IsNonemptyArrayOf fun _ => True) allowed, .packageAllowedFolders index⟩ ::
    (allowed.getD .null).items.map fun folder =>
      ⟨IsFolder known folder, .packageUnknownFolder index folder.render⟩

def packageRuleChecks (rule : Json) : List Check :=
  [⟨IsRequired IsName (rule.get? "name"), .packageName index⟩,
    ⟨IsOptional (IsArrayOf IsName) (rule.get? "importNames"), .packageImportNames index⟩] ++
  allowedFoldersChecks known index (rule.get? "allowedInFolders")

def lintFileChecks (pattern : Json) : List Check :=
  [⟨IsPattern pattern, .lintFilePlaceholder index⟩]

end Checks

/-- The member that holds the flow; it has an older name too. -/
def flowPart (raw : Json) : Option Json :=
  present (raw.get? "dependencyFlow") <|> present (raw.get? "dependencyFlowchart")

/-- The folder is at one end of an edge of the flow. -/
def Known (raw : Json) (folder : String) : Prop :=
  ∃ flow, flowPart raw = some flow ∧ NamesFolder flow folder

/-- The lint-file patterns; one may stand without a list around it. -/
def patternsOf (part : Option Json) : List Json :=
  match part with
  | some (.string s) => [.string s]
  | _ => (part.getD .null).items

/-- What is asked of a part as a whole. -/
def headChecks (raw : Json) : Part → List Check
  | .root => [⟨IsObject raw, .notAnObject⟩]
  | .appAlias => [⟨IsRequired IsName (raw.get? "appAlias"), .appAlias⟩]
  | .flow => [⟨IsRequired IsArray (flowPart raw), .flowNotArray⟩]
  | .docs => docsChecks (raw.get? "docs")
  | .overrideRules => overridesChecks (Known raw) (raw.get? "overrideRules")
  | .packageRules =>
    [⟨IsOptional IsArray (raw.get? "packageImportRules"), .packageRulesNotArray⟩]
  | .lintFiles =>
    [⟨IsRequired (fun j => IsString j ∨ IsArray j) (raw.get? "lintFiles"), .lintFilesType⟩,
      ⟨raw.get? "lintFiles" ≠ some (.array []), .lintFilesEmpty⟩]
  | .moduleLayout =>
    [⟨IsOptional IsLayout (raw.get? "moduleLayout"),
      .unknownModuleLayout ((raw.get? "moduleLayout").getD .null).render⟩]

/-- The items of a part, where it is a list. -/
def listed (raw : Json) : Part → List Json
  | .flow => ((flowPart raw).getD .null).items
  | .packageRules => ((raw.get? "packageImportRules").getD .null).items
  | .lintFiles => patternsOf (raw.get? "lintFiles")
  | _ => []

/-- What is asked of an item of a part. -/
def itemChecks (raw : Json) : Part → Nat → Json → List Check
  | .flow => edgeChecks
  | .packageRules => packageRuleChecks (Known raw)
  | .lintFiles => lintFileChecks
  | _ => fun _ _ => []

def partChecks (raw : Json) (part : Part) : List Check :=
  headChecks raw part ++ checksFrom (itemChecks raw part) 0 (listed raw part)

/-- All that is asked of a configuration, in order. -/
def checks (raw : Json) : List Check :=
  Part.inOrder.flatMap (partChecks raw)

/-! ## Members -/

variable {part : Option Json} {j : Json} {p : Json → Prop} {e : ConfigError} {index : Nat}
  {folders : FolderSet}

theorem isOptional_of_none (h : present part = none) : IsOptional p part :=
  fun j hj => Or.inl (present_eq_none_iff.mp h j hj)

theorem isOptional_of_some (h : present part = some j) : IsOptional p part ↔ p j := by
  obtain ⟨rfl, hnull⟩ := present_eq_some_iff.mp h
  simp [IsOptional, hnull]

theorem isOptional_none : IsOptional p none :=
  nofun

theorem isRequired_some : IsRequired p (some j) ↔ p j := by
  simp [IsRequired]

theorem getD_of_none (h : present part = none) : part.getD .null = .null := by
  cases part with
  | none => rfl
  | some j => exact present_eq_none_iff.mp h j rfl

theorem getD_of_some (h : present part = some j) : part.getD .null = j := by
  rw [(present_eq_some_iff.mp h).1]
  rfl

theorem reports_nonBlank? (e : ConfigError) (part : Option Json) :
    Reports (orError e (nonBlank? part)) [⟨IsRequired IsName part, e⟩] := by
  refine reports_orError ?_
  simp only [nonBlank?_eq_some_iff]
  exact exists_describesRequired_iff fun _ => exists_describesName_iff

theorem reports_text? (e : ConfigError) (part : Option Json) :
    Reports (text? e part) [⟨IsOptional IsString part, e⟩] := by
  refine reports_single ?_ ?_
  · simp only [text?_eq_ok_iff]
    exact exists_describesOptional_iff fun _ => exists_describesText_iff
  · intro e' h
    unfold text? at h
    split at h
    · exact absurd h nofun
    · exact absurd h nofun
    · exact (Except.error.inj h).symm

theorem reports_readFlag (e : ConfigError) (part : Option Json) :
    Reports (readFlag e part) [⟨IsOptional IsBool part, e⟩] := by
  refine reports_single ?_ ?_
  · simp only [readFlag_eq_ok_iff]
    exact exists_describesOr_iff fun _ => exists_describesBool_iff
  · intro e' h
    unfold readFlag at h
    split at h
    · exact absurd h nofun
    · exact absurd h nofun
    · exact (Except.error.inj h).symm

/-! ## The flow -/

theorem reports_readEdgeOptions (index : Nat) (members : Members) :
    Reports (readEdgeOptions index members)
      [⟨IsOptional IsBool (Members.find? members "selfOnly"),
          .edgeOptionType index "selfOnly" "boolean"⟩,
        ⟨IsOptional IsString (Members.find? members "label"),
          .edgeOptionType index "label" "string"⟩,
        ⟨IsOptional IsString (Members.find? members "description"),
          .edgeOptionType index "description" "string"⟩] := by
  rw [readEdgeOptions_eq]
  exact (reports_readFlag _ _).bind fun selfOnly _ => (reports_text? _ _).bind fun label _ =>
    (reports_text? _ _).bind_pure _

theorem reports_readOptionsOf (index : Nat) (part : Option Json) :
    Reports (readOptionsOf index part) (optionsChecks index part) := by
  unfold readOptionsOf
  cases h : present part with
  | none =>
    -- no options, so nothing stands under any key of theirs
    have hmissing (key : String) : part.bind (get? · key) = none := by
      cases part with
      | none => rfl
      | some j => rw [present_eq_none_iff.mp h j rfl]; rfl
    refine reports_ok ?_
    simp [optionsChecks, AllHold, isOptional_of_none h, hmissing, isOptional_none]
  | some j =>
    obtain ⟨rfl, hnull⟩ := present_eq_some_iff.mp h
    cases j with
    | object members =>
      refine (reports_readEdgeOptions index members).cons ?_
      exact (isOptional_of_some h).mpr ⟨members, rfl⟩
    | _ =>
      refine reports_error (fun hobject : IsOptional IsObject _ => ?_)
      obtain ⟨members, hj⟩ := (isOptional_of_some h).mp hobject
      exact absurd hj nofun

theorem reports_readEdge (index : Nat) (edge : Json) :
    Reports (readEdge index edge) (edgeChecks index edge) := by
  match edge with
  | .array (first :: second :: more) =>
    rw [readEdge_eq]
    have htuple : 2 ≤ (Json.array (first :: second :: more)).items.length := by
      simp [items]
    have hoptions := reports_readOptionsOf index more.head?
    rw [List.head?_eq_getElem?] at hoptions ⊢
    refine Reports.cons ?_ htuple
    exact (reports_nonBlank? _ _).bind fun source _ => (reports_nonBlank? _ _).bind fun target _ =>
      hoptions.bind_pure _
  | .array [] | .array [_] | .null | .bool _ | .number _ | .string _ | .object _ =>
    refine reports_error (fun hlength => ?_)
    simp [items] at hlength

theorem reports_readFlow (part : Option Json) :
    Reports (readFlow part) (⟨IsRequired IsArray part, .flowNotArray⟩ ::
      checksFrom edgeChecks 0 (part.getD .null).items) := by
  have harray : (∃ items, part.bind asArray? = some items) ↔ IsRequired IsArray part := by
    simp only [Option.bind_eq_some_iff, asArray?_eq_some_iff, IsRequired, IsArray]
    rw [exists_comm]
    simp only [exists_and_left]
  refine (reports_orError harray).bind fun items hitems => ?_
  obtain ⟨j, rfl, hj⟩ := Option.bind_eq_some_iff.mp (orError_eq_ok_iff.mp hitems)
  obtain rfl := asArray?_eq_some_iff.mp hj
  exact (reports_eachFrom reports_readEdge 0 items).bind_pure Flow.mk

/-! ## Docs -/

theorem reports_readDocs (part : Option Json) :
    Reports (readOptional readDocs part) (docsChecks part) := by
  unfold readOptional
  cases h : present part with
  | none =>
    refine reports_ok ?_
    simp [docsChecks, AllHold, isOptional_of_none h]
  | some j =>
    simp only [docsChecks, isOptional_of_some h]
    refine Reports.map ?_
    exact (reports_nonBlank? _ _).bind fun file _ => (reports_nonBlank? _ _).bind fun markerTag _ =>
      (reports_text? _ _).bind_pure _

/-! ## Overrides -/

/-- Every key must be a folder. -/
def allKnown (folders : FolderSet) (keys : List String) : Except ConfigError Unit :=
  match keys.find? fun key => !folders.contains key with
  | some folder => .error (.overrideUnknownFolder folder)
  | none => .ok ()

theorem readOverrides_eq (folders : FolderSet) (value : Json) : readOverrides folders value =
    orError .overrideRulesNotObject value.asObject? >>= fun entries =>
      allKnown folders (Members.keys entries) >>= fun _ => readOverrideEntries entries [] := by
  unfold readOverrides allKnown
  congr 1
  funext entries
  cases (Members.keys entries).find? fun key => !folders.contains key <;> rfl

theorem reports_allKnown (entries : Members) :
    Reports (allKnown folders (Members.keys entries))
      (entries.map fun entry => ⟨entry.1 ∈ folders, .overrideUnknownFolder entry.1⟩) := by
  induction entries with
  | nil => exact reports_ok allHold_nil
  | cons entry entries ih =>
    unfold allKnown at ih ⊢
    rw [Members.keys_cons, List.find?_cons]
    by_cases hknown : entry.1 ∈ folders
    · rw [FolderSet.contains_iff.mpr hknown]
      exact ih.cons hknown
    · rw [Bool.eq_false_iff.mpr (FolderSet.contains_iff.not.mpr hknown)]
      exact reports_error hknown

theorem reports_readOverrideEntries (entries : Members) (found : List (String × Members)) :
    Reports (readOverrideEntries entries found)
      (entries.map fun entry => ⟨IsOverride entry.2, .overrideNotObject entry.1⟩) := by
  induction entries generalizing found with
  | nil => exact reports_ok allHold_nil
  | cons entry entries ih =>
    obtain ⟨folder, value⟩ := entry
    cases value with
    | null => exact (ih found).cons (Or.inl rfl)
    | object rules => exact (ih _).cons (Or.inr ⟨rules, rfl⟩)
    | _ => exact reports_error (by simp [IsOverride])

theorem reports_readOverrides (part : Option Json) :
    Reports (readOptional (readOverrides folders) part) (overridesChecks (· ∈ folders) part) := by
  unfold readOptional overridesChecks
  cases h : present part with
  | none =>
    rw [getD_of_none h]
    exact reports_ok (allHold_cons_iff.mpr ⟨isOptional_of_none h, allHold_nil⟩)
  | some j =>
    rw [getD_of_some h, isOptional_of_some h]
    refine Reports.map ?_
    rw [readOverrides_eq]
    cases j with
    | object entries =>
      refine Reports.cons ?_ ⟨entries, rfl⟩
      exact (reports_allKnown entries).bind fun _ _ => reports_readOverrideEntries entries []
    | _ => refine reports_error ?_; simp [IsObject]

/-! ## Package rules -/

theorem reports_readImportNames (index : Nat) (part : Option Json) :
    Reports (readImportNames index part)
      [⟨IsOptional (IsArrayOf IsName) part, .packageImportNames index⟩] := by
  refine reports_single ?_ fun e' h => ?_
  · simp only [readImportNames_eq_ok_iff]
    exact exists_describesImportNames_iff
  · unfold readImportNames at h
    split at h
    · exact absurd h nofun
    · exact absurd h nofun
    · rename_i names _ _
      have hnames := reports_eachFrom (fun _ name =>
        reports_nonBlank? (.packageImportNames index) (some name)) 0 names
      rw [checksFrom_single] at hnames
      obtain ⟨c, hc, -, rfl⟩ := ((hnames.bind_pure some e').mp h).exists_mem
      obtain ⟨name, -, rfl⟩ := List.mem_map.mp hc
      rfl
    · exact (Except.error.inj h).symm

theorem reports_readAllowedFolder (index : Nat) (folder : Json) :
    Reports (readAllowedFolder folders index folder)
      [⟨IsFolder (· ∈ folders) folder, .packageUnknownFolder index folder.render⟩] := by
  refine reports_single ?_ fun e' h => ?_
  · simp only [readAllowedFolder_eq_ok_iff]
    exact exists_describesFolder_iff
  · unfold readAllowedFolder at h
    split at h
    · split at h
      · exact absurd h nofun
      · exact (Except.error.inj h).symm
    · exact (Except.error.inj h).symm

theorem reports_readAllowedFolders (index : Nat) (part : Option Json) :
    Reports (readAllowedFolders folders index part)
      (allowedFoldersChecks (· ∈ folders) index part) := by
  unfold readAllowedFolders allowedFoldersChecks
  match part with
  | some (.array (first :: more)) =>
    have hfolders :
        Reports (each (fun _ => readAllowedFolder folders index) (first :: more)) _ :=
      reports_eachFrom (fun _ => reports_readAllowedFolder index) 0 (first :: more)
    rw [checksFrom_single] at hfolders
    refine hfolders.cons (isRequired_some.mpr ?_)
    exact ⟨by simp, _, rfl, fun _ _ => trivial⟩
  | none | some (.array []) | some .null | some (.bool _) | some (.number _) | some (.string _)
  | some (.object _) =>
    refine reports_error ?_
    simp [IsRequired, IsNonemptyArrayOf, IsArrayOf]

theorem reports_readPackageRule (index : Nat) (rule : Json) :
    Reports (readPackageRule folders index rule) (packageRuleChecks (· ∈ folders) index rule) := by
  rw [readPackageRule_eq]
  exact (reports_nonBlank? _ _).bind fun _ _ => (reports_readImportNames _ _).bind fun _ _ =>
    (reports_readAllowedFolders _ _).bind_pure _

theorem reports_readPackageRules (part : Option Json) :
    Reports (readOptional (readPackageRules folders) part)
      (⟨IsOptional IsArray part, .packageRulesNotArray⟩ ::
        checksFrom (packageRuleChecks (· ∈ folders)) 0 (part.getD .null).items) := by
  unfold readOptional
  cases h : present part with
  | none =>
    rw [getD_of_none h]
    exact reports_ok (allHold_cons_iff.mpr ⟨isOptional_of_none h, allHold_nil⟩)
  | some j =>
    rw [getD_of_some h, isOptional_of_some h]
    refine Reports.map ?_
    cases j with
    | array items =>
      refine Reports.cons ?_ ⟨items, rfl⟩
      exact reports_eachFrom reports_readPackageRule 0 items
    | _ => refine reports_error ?_; simp [IsArray]

/-! ## Lint files and layout -/

theorem reports_readLintFile (index : Nat) (pattern : Json) :
    Reports (readLintFile index pattern) (lintFileChecks index pattern) := by
  refine reports_orError ?_
  simp only [← orError_eq_ok_iff (e := .lintFilePlaceholder index)]
  exact (exists_congr fun _ => readLintFile_eq_ok_iff).trans exists_describesPattern_iff

theorem reports_readLintFiles (part : Option Json) :
    Reports (readLintFiles part)
      ([⟨IsRequired (fun j => IsString j ∨ IsArray j) part, .lintFilesType⟩,
          ⟨part ≠ some (.array []), .lintFilesEmpty⟩] ++
        checksFrom lintFileChecks 0 (patternsOf part)) := by
  match part with
  | some (.string s) =>
    refine Reports.cons (Reports.cons ?_ nofun) (isRequired_some.mpr (Or.inl ⟨s, rfl⟩))
    exact reports_eachFrom reports_readLintFile 0 [.string s]
  | some (.array (first :: more)) =>
    refine Reports.cons (Reports.cons ?_ nofun) (isRequired_some.mpr (Or.inr ⟨_, rfl⟩))
    exact reports_eachFrom reports_readLintFile 0 (first :: more)
  | some (.array []) =>
    refine Reports.cons (reports_error fun hne => hne rfl) (isRequired_some.mpr (Or.inr ⟨_, rfl⟩))
  | none | some .null | some (.bool _) | some (.number _) | some (.object _) =>
    refine reports_error ?_
    simp [IsRequired, IsString, IsArray]

theorem reports_readModuleLayout (part : Option Json) :
    Reports (readModuleLayout part)
      [⟨IsOptional IsLayout part, .unknownModuleLayout (part.getD .null).render⟩] := by
  refine reports_single ?_ fun e' h => ?_
  · simp only [readModuleLayout_eq_ok_iff]
    exact exists_describesOr_iff fun _ => exists_describesLayout_iff
  · unfold readModuleLayout at h
    split at h
    · exact absurd h nofun
    · exact absurd h nofun
    · exact absurd h nofun
    · rename_i hpart
      rw [getD_of_some hpart]
      exact (Except.error.inj h).symm

/-! ## The whole -/

theorem known_iff {raw : Members} {flow : Flow} (h : readFlow (flowMember raw) = .ok flow)
    (folder : String) : Known (.object raw) folder ↔ folder ∈ flow.folders := by
  obtain ⟨_, hflow, items, rfl, hedges⟩ := readFlow_eq_ok_iff.mp h
  have hpart : flowPart (.object raw) = some (.array items) := flowMember_eq_some_iff.mpr hflow
  unfold Known
  simp only [hpart, Option.some.injEq, exists_eq_left']
  exact namesFolder_iff hedges folder

theorem checks_eq (raw : Json) : checks raw =
    headChecks raw .root ++ (headChecks raw .appAlias ++ (partChecks raw .flow ++
      (headChecks raw .docs ++ (headChecks raw .overrideRules ++ (partChecks raw .packageRules ++
        (partChecks raw .lintFiles ++ headChecks raw .moduleLayout)))))) := by
  simp [checks, Part.inOrder, partChecks, listed, checksFrom]

/-- Reading a configuration fails with the first fault. -/
theorem reports_validate (raw : Json) : Reports (validate raw) (checks raw) := by
  rw [checks_eq]
  cases raw with
  | object members =>
    refine Reports.cons ?_ ⟨members, rfl⟩
    refine (reports_nonBlank? _ _).bind fun appAlias _ => ?_
    refine Reports.bind (reports_readFlow _) fun flow hflow => ?_
    -- the later checks ask for the folders of the flow that has been read
    have hknown : Known (.object members) = (· ∈ flow.folders) :=
      funext fun folder => propext (known_iff hflow folder)
    simp only [partChecks, headChecks, itemChecks, hknown]
    exact (reports_readDocs _).bind fun docs _ => (reports_readOverrides _).bind fun overrides _ =>
      (reports_readPackageRules _).bind fun packageRules _ => (reports_readLintFiles _).bind
        fun lintFiles _ => (reports_readModuleLayout _).bind_pure _
  | _ => exact reports_error (by simp [IsObject])

end Config

end FolderFlow
