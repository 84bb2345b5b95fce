import FolderFlow.Proofs.Except
import FolderFlow.Proofs.Overrides

/-!
# Validation and the grammar

`accepts_iff_isConfig`: a value is accepted exactly when it is a configuration, and what comes out
is what it describes. There is one lemma for each reader, which says that it succeeds with exactly
what its part describes (`validateMembers_eq_ok_iff`); the grammar in turn leaves nothing
undescribed (`exists_describes_iff`).
-/

namespace FolderFlow.Config

open Json

variable {α : Type} {R : Json → α → Prop} {j : Json} {part : Option Json} {e : ConfigError}
  {index : Nat}

/-! ## Parts -/

theorem present_eq_some_iff : present part = some j ↔ part = some j ∧ j ≠ .null := by
  unfold present
  rw [Option.filter_eq_some_iff]
  cases j <;> simp [isNull]

theorem present_eq_none_iff : present part = none ↔ ∀ j, part = some j → j = .null := by
  cases part with
  | none => simp [present]
  | some j => cases j <;> simp [present, isNull]

theorem describesOptional_of_none {found : Option α} (h : present part = none) :
    DescribesOptional R part found ↔ found = none := by
  constructor
  · intro hfound
    cases hfound with
    | missing => rfl
    | null => rfl
    | there hnull => exact absurd (present_eq_none_iff.mp h _ rfl) hnull
  · rintro rfl
    cases part with
    | none => exact .missing
    | some j =>
      obtain rfl := present_eq_none_iff.mp h j rfl
      exact .null

theorem describesOptional_of_some {found : Option α} (h : present part = some j) :
    DescribesOptional R part found ↔ ∃ a, R j a ∧ found = some a := by
  obtain ⟨rfl, hnull⟩ := present_eq_some_iff.mp h
  constructor
  · intro hfound
    cases hfound with
    | null => exact absurd rfl hnull
    | there _ ha => exact ⟨_, ha, rfl⟩
  · rintro ⟨a, ha, rfl⟩
    exact .there hnull ha

theorem describesOr_of_none {absent a : α} (h : present part = none) :
    DescribesOr absent R part a ↔ a = absent := by
  simp [DescribesOr, describesOptional_of_none h]

theorem describesOr_of_some {absent a : α} (h : present part = some j) :
    DescribesOr absent R part a ↔ R j a := by
  simp [DescribesOr, describesOptional_of_some h]

theorem orError_eq_ok_iff {found : Option α} {a : α} :
    orError e found = .ok a ↔ found = some a := by
  cases found <;> simp [orError]

theorem nonBlank?_eq_some_iff {s : String} :
    nonBlank? part = some s ↔ DescribesRequired DescribesName part s := by
  unfold nonBlank? DescribesRequired DescribesName
  rw [Option.filter_eq_some_iff]
  constructor
  · rintro ⟨hstring, hblank⟩
    obtain ⟨j, hpart, hj⟩ := Option.bind_eq_some_iff.mp hstring
    cases j with
    | string text =>
      obtain rfl := Option.some.inj hj
      exact ⟨_, hpart, rfl, by simpa using hblank⟩
    | _ => exact absurd hj (by simp [asString?])
  · rintro ⟨j, rfl, rfl, hblank⟩
    exact ⟨rfl, by simpa using hblank⟩

theorem text?_eq_ok_iff {found : Option String} :
    text? e part = .ok found ↔ DescribesOptional DescribesText part found := by
  unfold text?
  cases h : present part with
  | none => rw [describesOptional_of_none h, Except.ok.injEq, eq_comm]
  | some j =>
    rw [describesOptional_of_some h]
    cases j with
    | string s => simp [DescribesText, eq_comm]
    | _ => simp [DescribesText]

theorem readOptional_eq_ok_iff {read : Json → Except ConfigError α} {found : Option α}
    (hread : ∀ j a, read j = .ok a ↔ R j a) :
    readOptional read part = .ok found ↔ DescribesOptional R part found := by
  unfold readOptional
  cases h : present part with
  | none => rw [describesOptional_of_none h, Except.ok.injEq, eq_comm]
  | some j =>
    rw [describesOptional_of_some h, map_eq_ok_iff]
    exact exists_congr fun a => and_congr (hread j a) eq_comm

theorem eachFrom_eq_ok_iff {read : Nat → Json → Except ConfigError α} {items : List Json}
    {as : List α} (hread : ∀ index j a, read index j = .ok a ↔ R j a) :
    eachFrom read index items = .ok as ↔ List.Forall₂ R items as := by
  induction items generalizing index as with
  | nil => rw [eachFrom, Except.ok.injEq, List.forall₂_nil_left_iff, eq_comm]
  | cons item items ih =>
    rw [List.forall₂_cons_left_iff]
    simp only [eachFrom, bind_eq_ok_iff, pure_eq_ok_iff, hread, ih, ← exists_and_left]
    exact exists_congr fun a => exists_congr fun more => by rw [eq_comm (b := as)]

theorem each_eq_ok_iff {read : Nat → Json → Except ConfigError α} {items : List Json}
    {as : List α} (hread : ∀ index j a, read index j = .ok a ↔ R j a) :
    each read items = .ok as ↔ List.Forall₂ R items as :=
  eachFrom_eq_ok_iff hread

theorem describesNonempty_cons_iff {item : Json} {items : List Json} {as : List α} :
    DescribesNonempty R (.array (item :: items)) as ↔ List.Forall₂ R (item :: items) as := by
  constructor
  · rintro ⟨-, items', hitems, has⟩
    rwa [Json.array.inj hitems]
  · intro has
    refine ⟨?_, _, rfl, has⟩
    rintro rfl
    exact absurd has (by simp)

theorem not_describesNonempty_nil {as : List α} : ¬ DescribesNonempty R (.array []) as := by
  rintro ⟨hne, items, hitems, has⟩
  obtain rfl := Json.array.inj hitems
  exact hne (List.forall₂_nil_left_iff.mp has)

theorem asArray?_eq_some_iff {items : List Json} : j.asArray? = some items ↔ j = .array items := by
  cases j <;> simp [asArray?]

theorem asObject?_eq_some_iff {members : Members} :
    j.asObject? = some members ↔ j = .object members := by
  cases j <;> simp [asObject?]

/-! ## The flow -/

/-- A truth value that may be missing. -/
def readFlag (e : ConfigError) (part : Option Json) : Except ConfigError Bool :=
  match present part with
  | none => .ok false
  | some (.bool b) => .ok b
  | some _ => .error e

theorem readFlag_eq_ok_iff {b : Bool} :
    readFlag e part = .ok b ↔ DescribesOr false DescribesBool part b := by
  unfold readFlag
  cases h : present part with
  | none => rw [describesOr_of_none h, Except.ok.injEq, eq_comm]
  | some j => cases j <;> simp [describesOr_of_some h, DescribesBool]

theorem readEdgeOptions_eq (index : Nat) (members : Members) :
    readEdgeOptions index members = do
      let selfOnly ← readFlag (.edgeOptionType index "selfOnly" "boolean")
        (Members.find? members "selfOnly")
      let label ← text? (.edgeOptionType index "label" "string") (Members.find? members "label")
      let description ← text? (.edgeOptionType index "description" "string")
        (Members.find? members "description")
      return { label, description, selfOnly } := by
  unfold readEdgeOptions readFlag
  generalize present (Members.find? members "selfOnly") = value
  cases value with
  | none => rfl
  | some j => cases j <;> rfl

theorem readEdgeOptions_eq_ok_iff {members : Members} {o : EdgeOptions} :
    readEdgeOptions index members = .ok o ↔ DescribesEdgeOptions (.object members) o := by
  rw [readEdgeOptions_eq]
  simp only [bind_eq_ok_iff, pure_eq_ok_iff, readFlag_eq_ok_iff, text?_eq_ok_iff]
  constructor
  · rintro ⟨selfOnly, hself, label, hlabel, description, hdescription, rfl⟩
    exact ⟨members, rfl, hself, hlabel, hdescription⟩
  · rintro ⟨_, hmembers, hself, hlabel, hdescription⟩
    obtain rfl := Json.object.inj hmembers
    exact ⟨_, hself, _, hlabel, _, hdescription, rfl⟩

/-- The options of an edge, which may be missing. -/
def readOptionsOf (index : Nat) (part : Option Json) : Except ConfigError EdgeOptions :=
  match present part with
  | none => .ok {}
  | some (.object members) => readEdgeOptions index members
  | some _ => .error (.edgeOptionsNotObject index)

theorem readOptionsOf_eq_ok_iff {o : EdgeOptions} :
    readOptionsOf index part = .ok o ↔ DescribesOr {} DescribesEdgeOptions part o := by
  unfold readOptionsOf
  cases h : present part with
  | none => rw [describesOr_of_none h, Except.ok.injEq, eq_comm]
  | some j =>
    rw [describesOr_of_some h]
    cases j with
    | object members => exact readEdgeOptions_eq_ok_iff
    | _ => simp [DescribesEdgeOptions]

theorem readEdge_eq (index : Nat) (first second : Json) (more : List Json) :
    readEdge index (.array (first :: second :: more)) = do
      let source ← orError (.edgeEndpoint index 0) (nonBlank? (some first))
      let target ← orError (.edgeEndpoint index 1) (nonBlank? (some second))
      let options ← readOptionsOf index more.head?
      return { source, target, options } := by
  simp only [readEdge, readOptionsOf]
  generalize present more.head? = value
  cases value with
  | none => rfl
  | some j => cases j <;> rfl

theorem describesRequired_some {a : α} : DescribesRequired R (some j) a ↔ R j a := by
  simp [DescribesRequired]

theorem readEdge_eq_ok_iff {edge : Edge} : readEdge index j = .ok edge ↔ DescribesEdge j edge := by
  constructor
  · intro h
    match j, h with
    | .array (first :: second :: more), h =>
      rw [readEdge_eq] at h
      simp only [bind_eq_ok_iff, pure_eq_ok_iff, orError_eq_ok_iff, nonBlank?_eq_some_iff,
        readOptionsOf_eq_ok_iff, describesRequired_some] at h
      obtain ⟨source, hsource, target, htarget, options, hoptions, rfl⟩ := h
      exact ⟨first, second, more, rfl, hsource, htarget, hoptions⟩
  · rintro ⟨first, second, more, rfl, hsource, htarget, hoptions⟩
    rw [readEdge_eq]
    simp only [bind_eq_ok_iff, pure_eq_ok_iff, orError_eq_ok_iff, nonBlank?_eq_some_iff,
      readOptionsOf_eq_ok_iff, describesRequired_some]
    exact ⟨_, hsource, _, htarget, _, hoptions, rfl⟩

theorem flowMember_eq_some_iff {raw : Members} {flow : Json} :
    flowMember raw = some flow ↔ IsFlowOf raw flow := by
  unfold flowMember IsFlowOf
  cases h : present (Members.find? raw "dependencyFlow") with
  | none =>
    have hnull := present_eq_none_iff.mp h
    have hnot : flow ≠ .null → Members.find? raw "dependencyFlow" ≠ some flow :=
      fun hflow hfind => hflow (hnull flow hfind)
    rw [show (none <|> present (Members.find? raw "dependencyFlowchart")) =
      present (Members.find? raw "dependencyFlowchart") from rfl, present_eq_some_iff, and_comm]
    refine and_congr_right fun hflow => ?_
    rw [or_iff_right (hnot hflow), and_iff_right hnull]
  | some j =>
    obtain ⟨hfind, hnull⟩ := present_eq_some_iff.mp h
    rw [show (some j <|> present (Members.find? raw "dependencyFlowchart")) = some j from rfl,
      hfind]
    constructor
    · rintro hj
      obtain rfl := Option.some.inj hj
      exact ⟨hnull, Or.inl rfl⟩
    · rintro ⟨-, hj | ⟨hmissing, -⟩⟩
      · exact hj
      · exact absurd (hmissing j rfl) hnull

theorem readFlow_eq_ok_iff {raw : Members} {flow : Flow} :
    readFlow (flowMember raw) = .ok flow ↔
      ∃ j, IsFlowOf raw j ∧ DescribesList DescribesEdge j flow.edges := by
  unfold readFlow DescribesList
  simp only [bind_eq_ok_iff, pure_eq_ok_iff, orError_eq_ok_iff, Option.bind_eq_some_iff,
    flowMember_eq_some_iff, asArray?_eq_some_iff,
    each_eq_ok_iff (R := DescribesEdge) fun _ _ _ => readEdge_eq_ok_iff]
  constructor
  · rintro ⟨items, ⟨j, hflow, rfl⟩, edges, hedges, rfl⟩
    exact ⟨_, hflow, items, rfl, hedges⟩
  · rintro ⟨j, hflow, items, rfl, hedges⟩
    exact ⟨items, ⟨_, hflow, rfl⟩, flow.edges, hedges, rfl⟩

/-! ## Docs -/

theorem readDocs_eq_ok_iff {docs : DocsOptions} : readDocs j = .ok docs ↔ DescribesDocs j docs := by
  unfold readDocs
  simp only [bind_eq_ok_iff, pure_eq_ok_iff, orError_eq_ok_iff, nonBlank?_eq_some_iff,
    text?_eq_ok_iff]
  constructor
  · rintro ⟨file, hfile, tag, htag, content, hcontent, rfl⟩
    exact ⟨hfile, htag, hcontent⟩
  · rintro ⟨hfile, htag, hcontent⟩
    exact ⟨_, hfile, _, htag, _, hcontent, rfl⟩

/-! ## Overrides -/

variable {folders : FolderSet}

theorem readOverrides_eq_ok_iff {o : List (String × Members)} :
    readOverrides folders j = .ok o ↔ DescribesOverrides (· ∈ folders) j o := by
  unfold readOverrides
  simp only [bind_eq_ok_iff, orError_eq_ok_iff, asObject?_eq_some_iff]
  refine exists_congr fun entries => and_congr_right fun _ => ?_
  -- the keys are looked at before the values, and both must be in order
  have hkeys : (∀ entry ∈ entries, entry.1 ∈ folders ∧ IsOverride entry.2) ↔
      (Members.keys entries).find? (fun key => !folders.contains key) = none ∧
        ∀ entry ∈ entries, IsOverride entry.2 := by
    rw [List.find?_eq_none, forall₂_and]
    simp [Members.keys]
  rw [hkeys]
  cases (Members.keys entries).find? fun key => !folders.contains key with
  | some folder => simp
  | none => simp [readOverrideEntries_eq_ok_iff]

/-! ## Package rules -/

theorem readImportNames_eq_ok_iff {names : Option (List String)} :
    readImportNames index part = .ok names ↔ DescribesImportNames part names := by
  have hname : ∀ (_ : Nat) (j : Json) (s : String),
      orError (.packageImportNames index) (nonBlank? (some j)) = .ok s ↔ DescribesName j s := by
    intro _ j s
    rw [orError_eq_ok_iff, nonBlank?_eq_some_iff, describesRequired_some]
  unfold readImportNames DescribesImportNames
  cases h : present part with
  | none => simp [describesOptional_of_none h, eq_comm]
  | some j =>
    simp only [describesOptional_of_some h, DescribesList]
    cases j with
    | array items =>
      cases items with
      | nil =>
        simp only [Except.ok.injEq, Json.array.injEq]
        constructor
        · rintro rfl
          exact ⟨some [], ⟨[], ⟨[], rfl, .nil⟩, rfl⟩, rfl⟩
        · rintro ⟨_, ⟨listed, ⟨_, rfl, hlisted⟩, rfl⟩, rfl⟩
          obtain rfl := List.forall₂_nil_left_iff.mp hlisted
          rfl
      | cons item items =>
        simp only [bind_eq_ok_iff, pure_eq_ok_iff, each_eq_ok_iff hname, Json.array.injEq]
        constructor
        · rintro ⟨listed, hlisted, rfl⟩
          refine ⟨some listed, ⟨listed, ⟨_, rfl, hlisted⟩, rfl⟩, ?_⟩
          obtain ⟨first, more, -, -, rfl⟩ := List.forall₂_cons_left_iff.mp hlisted
          rfl
        · rintro ⟨_, ⟨listed, ⟨_, rfl, hlisted⟩, rfl⟩, rfl⟩
          refine ⟨listed, hlisted, ?_⟩
          obtain ⟨first, more, -, -, rfl⟩ := List.forall₂_cons_left_iff.mp hlisted
          rfl
    | _ => simp

theorem readAllowedFolder_eq_ok_iff {folder : String} :
    readAllowedFolder folders index j = .ok folder ↔ DescribesFolder (· ∈ folders) j folder := by
  unfold readAllowedFolder DescribesFolder
  cases j with
  | string s =>
    simp only [FolderSet.contains_iff, Json.string.injEq]
    by_cases hs : s ∈ folders
    · rw [if_pos hs, Except.ok.injEq]
      exact ⟨fun h => ⟨h, h ▸ hs⟩, fun h => h.1⟩
    · rw [if_neg hs]
      exact iff_of_false (by simp) fun h => hs (h.1 ▸ h.2)
  | _ => simp

/-- The folders that may import a package; there must be some. -/
def readAllowedFolders (folders : FolderSet) (index : Nat) (part : Option Json) :
    Except ConfigError (List String) :=
  match part.bind Json.asArray? with
  | none | some [] => .error (.packageAllowedFolders index)
  | some allowed => each (fun _ => readAllowedFolder folders index) allowed

theorem readAllowedFolders_eq_ok_iff {allowed : List String} :
    readAllowedFolders folders index part = .ok allowed ↔
      DescribesRequired (DescribesNonempty (DescribesFolder (· ∈ folders))) part allowed := by
  unfold readAllowedFolders
  cases part with
  | none => simp [DescribesRequired]
  | some j =>
    rw [describesRequired_some]
    cases j with
    | array items =>
      cases items with
      | nil => simp [asArray?, not_describesNonempty_nil]
      | cons item items =>
        rw [describesNonempty_cons_iff]
        exact each_eq_ok_iff fun _ _ _ => readAllowedFolder_eq_ok_iff
    | _ => simp [asArray?, DescribesNonempty, DescribesList]

theorem readPackageRule_eq (rule : Json) : readPackageRule folders index rule = do
    let name ← orError (.packageName index) (nonBlank? (rule.get? "name"))
    let importNames ← readImportNames index (rule.get? "importNames")
    let allowedInFolders ← readAllowedFolders folders index (rule.get? "allowedInFolders")
    return { name, importNames, allowedInFolders } := by
  unfold readPackageRule readAllowedFolders
  generalize (rule.get? "allowedInFolders").bind Json.asArray? = value
  cases value with
  | none => rfl
  | some items => cases items <;> rfl

theorem readPackageRule_eq_ok_iff {rule : PackageRule} :
    readPackageRule folders index j = .ok rule ↔ DescribesPackageRule (· ∈ folders) j rule := by
  rw [readPackageRule_eq]
  simp only [bind_eq_ok_iff, pure_eq_ok_iff, orError_eq_ok_iff, nonBlank?_eq_some_iff,
    readImportNames_eq_ok_iff, readAllowedFolders_eq_ok_iff]
  constructor
  · rintro ⟨name, hname, names, hnames, allowed, hallowed, rfl⟩
    exact ⟨hname, hnames, hallowed⟩
  · rintro ⟨hname, hnames, hallowed⟩
    exact ⟨_, hname, _, hnames, _, hallowed, rfl⟩

theorem readPackageRules_eq_ok_iff {all : List PackageRule} :
    readPackageRules folders j = .ok all ↔
      DescribesList (DescribesPackageRule (· ∈ folders)) j all := by
  unfold readPackageRules DescribesList
  simp only [bind_eq_ok_iff, orError_eq_ok_iff, asArray?_eq_some_iff,
    each_eq_ok_iff (R := DescribesPackageRule (· ∈ folders)) fun _ _ _ => readPackageRule_eq_ok_iff]

/-! ## Lint files and layout -/

theorem readLintFile_eq_ok_iff {s : String} :
    readLintFile index j = .ok s ↔ DescribesPattern j s := by
  unfold readLintFile DescribesPattern
  rw [orError_eq_ok_iff, Option.filter_eq_some_iff, nonBlank?_eq_some_iff, describesRequired_some,
    Text.occursIn_iff]
  rfl

theorem readLintFiles_eq_ok_iff {patterns : List String} :
    readLintFiles part = .ok patterns ↔ DescribesRequired DescribesLintFiles part patterns := by
  have hread (items : List Json) : each readLintFile items = .ok patterns ↔
      List.Forall₂ DescribesPattern items patterns :=
    each_eq_ok_iff fun _ _ _ => readLintFile_eq_ok_iff
  cases part with
  | none => simp [readLintFiles, DescribesRequired]
  | some j =>
    rw [describesRequired_some, DescribesLintFiles]
    cases j with
    | string text =>
      rw [readLintFiles, hread, List.forall₂_cons_left_iff]
      simp [DescribesNonempty, DescribesList]
    | array items =>
      rw [or_iff_right (by simp [DescribesPattern, DescribesName])]
      cases items with
      | nil => simp [readLintFiles, not_describesNonempty_nil]
      | cons item items =>
        rw [describesNonempty_cons_iff]
        exact hread (item :: items)
    | _ => simp [readLintFiles, DescribesPattern, DescribesName, DescribesNonempty, DescribesList]

theorem readModuleLayout_eq_ok_iff {layout : ModuleLayout} :
    readModuleLayout part = .ok layout ↔ DescribesOr .folder DescribesLayout part layout := by
  unfold readModuleLayout
  cases h : present part with
  | none => rw [describesOr_of_none h, Except.ok.injEq, eq_comm]
  | some j =>
    rw [describesOr_of_some h, DescribesLayout]
    split
    · contradiction
    · rename_i hfolder
      obtain rfl := Option.some.inj hfolder
      cases layout <;> simp [ModuleLayout.name]
    · rename_i hflat
      obtain rfl := Option.some.inj hflat
      cases layout <;> simp [ModuleLayout.name]
    · rename_i hfolder hflat hj
      obtain rfl := Option.some.inj hj
      refine iff_of_false (by simp) fun hname => ?_
      cases layout with
      | folder => exact hfolder hname
      | flat => exact hflat hname

/-! ## The whole -/

theorem validateMembers_eq_ok_iff {raw : Members} {c : Config} :
    validateMembers raw = .ok c ↔ Describes raw c := by
  have hoverrides (flow : Flow) (part : Option Json) (found : Option (List (String × Members))) :
      readOptional (readOverrides flow.folders) part = .ok found ↔
        DescribesOptional (DescribesOverrides (· ∈ flow.folders)) part found :=
    readOptional_eq_ok_iff fun _ _ => readOverrides_eq_ok_iff
  have hpackages (flow : Flow) (part : Option Json) (found : Option (List PackageRule)) :
      readOptional (readPackageRules flow.folders) part = .ok found ↔
        DescribesOptional (DescribesList (DescribesPackageRule (· ∈ flow.folders))) part found :=
    readOptional_eq_ok_iff fun _ _ => readPackageRules_eq_ok_iff
  unfold validateMembers
  simp only [bind_eq_ok_iff, pure_eq_ok_iff, orError_eq_ok_iff, nonBlank?_eq_some_iff,
    readFlow_eq_ok_iff, readLintFiles_eq_ok_iff, readModuleLayout_eq_ok_iff, hoverrides, hpackages,
    readOptional_eq_ok_iff (R := DescribesDocs) fun _ _ => readDocs_eq_ok_iff]
  constructor
  · rintro ⟨appAlias, halias, flow, hflow, docs, hdocs, overrides, hoverrides, packages, hpackages,
      lintFiles, hlint, layout, hlayout, rfl⟩
    exact ⟨halias, hflow, hdocs, ⟨overrides, hoverrides, rfl⟩, ⟨packages, hpackages, rfl⟩, hlint,
      hlayout⟩
  · rintro ⟨halias, hflow, hdocs, ⟨overrides, hoverrides, ho⟩, ⟨packages, hpackages, hp⟩, hlint,
      hlayout⟩
    exact ⟨_, halias, _, hflow, _, hdocs, overrides, hoverrides, packages, hpackages, _, hlint, _,
      hlayout, by rw [← ho, ← hp]⟩

/-- Every object of the grammar describes a configuration, and no other does. -/
theorem exists_describes_iff {raw : Members} : (∃ c, Describes raw c) ↔ IsConfigObject raw := by
  constructor
  · rintro ⟨c, halias, ⟨_, hflow, items, rfl, hedges⟩, hdocs, hoverrides, hpackages, hlint, hlayout⟩
    have hknown : NamesFolder (.array items) = (· ∈ c.folders) :=
      funext fun folder => propext (namesFolder_iff hedges folder)
    refine ⟨?_, ⟨.array items, hflow, ?_, ?_, ?_⟩, ?_, ?_, ?_⟩
    · exact (exists_describesRequired_iff fun _ => exists_describesName_iff).mp ⟨_, halias⟩
    · exact (exists_describesList_iff fun _ => exists_describesEdge_iff).mp ⟨_, items, rfl, hedges⟩
    · rw [hknown]
      exact (exists_describesOr_iff fun _ => exists_describesOverrides_iff).mp ⟨_, hoverrides⟩
    · rw [hknown]
      exact (exists_describesOr_iff fun _ =>
        exists_describesList_iff fun _ => exists_describesPackageRule_iff).mp ⟨_, hpackages⟩
    · exact (exists_describesOptional_iff fun _ => exists_describesDocs_iff).mp ⟨_, hdocs⟩
    · exact (exists_describesRequired_iff fun _ => exists_describesLintFiles_iff).mp ⟨_, hlint⟩
    · exact (exists_describesOr_iff fun _ => exists_describesLayout_iff).mp ⟨_, hlayout⟩
  · rintro ⟨halias, ⟨flow, hflow, hedges, hoverrides, hpackages⟩, hdocs, hlint, hlayout⟩
    obtain ⟨appAlias, halias⟩ :=
      (exists_describesRequired_iff fun _ => exists_describesName_iff).mpr halias
    obtain ⟨edges, items, rfl, hitems⟩ :=
      (exists_describesList_iff fun _ => exists_describesEdge_iff).mpr hedges
    obtain ⟨docs, hdocs⟩ :=
      (exists_describesOptional_iff fun _ => exists_describesDocs_iff).mpr hdocs
    obtain ⟨lintFiles, hlint⟩ :=
      (exists_describesRequired_iff fun _ => exists_describesLintFiles_iff).mpr hlint
    obtain ⟨layout, hlayout⟩ :=
      (exists_describesOr_iff fun _ => exists_describesLayout_iff).mpr hlayout
    have hknown : NamesFolder (.array items) = (· ∈ (Flow.mk edges).folders) :=
      funext fun folder => propext (namesFolder_iff hitems folder)
    rw [hknown] at hoverrides hpackages
    obtain ⟨overrides, hoverrides⟩ :=
      (exists_describesOr_iff fun _ => exists_describesOverrides_iff).mpr hoverrides
    obtain ⟨packages, hpackages⟩ := (exists_describesOr_iff fun _ =>
      exists_describesList_iff fun _ => exists_describesPackageRule_iff).mpr hpackages
    exact ⟨⟨appAlias, ⟨edges⟩, docs, lintFiles, layout, overrides, packages⟩, halias,
      ⟨_, hflow, items, rfl, hitems⟩, hdocs, hoverrides, hpackages, hlint, hlayout⟩

theorem validate_eq_ok_iff {raw : Json} {c : Config} :
    validate raw = .ok c ↔ ∃ members, raw = .object members ∧ Describes members c := by
  cases raw with
  | object members => simp [validate, validateMembers_eq_ok_iff]
  | _ => simp [validate]

/-- **What is accepted.** A value is accepted exactly when it is a configuration, and then the
outcome is the configuration that it describes. -/
theorem accepts_iff_isConfig (raw : Json) :
    ((∃ c, validate raw = .ok c) ↔ IsConfig raw) ∧
    ∀ c, validate raw = .ok c ↔ ∃ members, raw = .object members ∧ Describes members c := by
  refine ⟨?_, fun c => validate_eq_ok_iff⟩
  simp only [validate_eq_ok_iff, IsConfig, ← exists_describes_iff]
  exact ⟨fun ⟨c, members, hraw, hc⟩ => ⟨members, hraw, c, hc⟩,
    fun ⟨members, hraw, c, hc⟩ => ⟨c, members, hraw, hc⟩⟩

end FolderFlow.Config
