import FolderFlow.Proofs.FolderOrder
import FolderFlow.Proofs.ImportGlob
import FolderFlow.Proofs.Reach
import Mathlib.Data.List.Count
import Mathlib.Data.List.Nodup

/-!
# Generated restrictions and the flow

`folderRules_enforce_flow`: the third and the fourth pattern of a folder forbid that folder itself
and the folders that the flow keeps from it, each by one glob, and no other folder.

A glob covers all that lies below its folder. `allowed_rejected_iff` tells what that means for a
linter: an import that the flow allows is rejected exactly where the names of folders are nested
(`nested_import_rejected` is the smallest case).
-/

namespace FolderFlow

/-- The flow keeps `folder` from `root`: no edge of the root and no path of plain edges from it
leads there. -/
def Flow.Unreachable (flow : Flow) (root folder : String) : Prop :=
  folder ≠ root ∧ ¬ flow.HasEdge root folder ∧ ¬ flow.PlainPath root folder

theorem Flow.unreachable_iff {flow : Flow} {root folder : String} :
    flow.Unreachable root folder ↔ folder ≠ root ∧ ¬ flow.MayImport root folder := by
  rw [Unreachable, MayImport, not_or]

instance (flow : Flow) (root folder : String) : Decidable (flow.Unreachable root folder) :=
  decidable_of_iff _ Flow.unreachable_iff.symm

namespace FolderRules

/-- The globs of the fourth pattern; there are none without that pattern. -/
def flowGroup (r : FolderRules) : List String :=
  (r.rules.patterns[3]?.map PatternRestriction.group).getD []

/-- The third or the fourth pattern makes a linter reject the specifier. -/
def Forbids (rejects : String → String → Prop) (r : FolderRules) (spec : String) : Prop :=
  ∃ p ∈ (r.rules.patterns.drop 2).take 2, ∃ glob ∈ p.group, rejects glob spec

end FolderRules

namespace Config

variable {c : Config} {folder : String}

/-! ## The patterns of one folder -/

theorem mem_folderRules {r : FolderRules} :
    r ∈ c.folderRules ↔ ∃ folder ∈ c.folders, c.rulesOf folder = r :=
  List.mem_map

theorem folderRules_folders (c : Config) :
    c.folderRules.map FolderRules.folder = c.folders.toList := by
  unfold folderRules
  rw [List.map_map]
  exact List.map_id _

theorem mem_disallowed {b : String} :
    b ∈ (c.rulesOf folder).disallowed ↔ b ∈ c.folders ∧ c.flow.Unreachable folder b := by
  rw [Flow.unreachable_iff]
  exact Flow.mem_disallowedImports

theorem nodup_disallowed (c : Config) (folder : String) : (c.rulesOf folder).disallowed.Nodup :=
  c.folders.nodup.filter _

theorem third_pattern (c : Config) (folder : String) :
    (c.rulesOf folder).rules.patterns[2]? = some (sameLayer c.appAlias folder) :=
  rfl

/-- The patterns that name folders. -/
theorem folder_patterns (c : Config) (folder : String) :
    (c.rulesOf folder).rules.patterns.drop 2 = sameLayer c.appAlias folder ::
      if (c.rulesOf folder).disallowed = [] then []
      else [folderFlow c.appAlias (c.rulesOf folder).disallowed] := by
  simp [rulesOf, RuleSet.build]

theorem fourth_pattern (c : Config) (folder : String) :
    (c.rulesOf folder).rules.patterns[3]? =
      if (c.rulesOf folder).disallowed = [] then none
      else some (folderFlow c.appAlias (c.rulesOf folder).disallowed) := by
  have h := congrArg (·[1]?) (folder_patterns c folder)
  simp only [List.getElem?_drop, List.getElem?_cons_succ] at h
  rw [h]
  split <;> rfl

theorem flowGroup_rulesOf (c : Config) (folder : String) :
    (c.rulesOf folder).flowGroup = (c.rulesOf folder).disallowed.map (aliasGlob c.appAlias) := by
  unfold FolderRules.flowGroup
  rw [fourth_pattern]
  split
  · rename_i hnone
    rw [hnone]
    rfl
  · rfl

theorem fourth_pattern_eq_none_iff :
    (c.rulesOf folder).rules.patterns[3]? = none ↔
      ∀ b ∈ c.folders, ¬ c.flow.Unreachable folder b := by
  have hempty : (c.rulesOf folder).rules.patterns[3]? = none ↔
      (c.rulesOf folder).disallowed = [] := by
    rw [fourth_pattern]
    split <;> simp_all
  rw [hempty, List.eq_nil_iff_forall_not_mem]
  refine forall_congr' fun b => ?_
  rw [mem_disallowed, not_and]

/-- A folder stands in the group once or not at all. -/
theorem count_flowGroup {b : String} (hb : b ∈ c.folders) :
    (c.rulesOf folder).flowGroup.count (aliasGlob c.appAlias b) =
      if c.flow.Unreachable folder b then 1 else 0 := by
  have hinj : Function.Injective (aliasGlob c.appAlias) := folderGlob_injective _
  rw [flowGroup_rulesOf, List.count_map_of_injective _ _ hinj]
  split
  · rename_i hun
    exact List.count_eq_one_of_mem (nodup_disallowed c folder) (mem_disallowed.mpr ⟨hb, hun⟩)
  · rename_i hreach
    exact List.count_eq_zero.mpr fun hmem => hreach (mem_disallowed.mp hmem).2

/-- **The flow is enforced.** There is one set of rules for each folder of the flow, in the order in
which the edges name them first. The third pattern of a folder holds its own glob and nothing else.
The fourth holds, once each, the globs of the folders that cannot be reached from it, and nothing
else; it is missing exactly when there are none. Different folders have different globs. -/
theorem folderRules_enforce_flow (c : Config) :
    FirstSeen c.flow.endpoints (c.folderRules.map FolderRules.folder) ∧
    ∃ trimmed, IsTrimmed c.appAlias trimmed ∧ Function.Injective (folderGlob trimmed) ∧
      ∀ r ∈ c.folderRules,
        r.rules.patterns[2]?.map PatternRestriction.group =
          some [folderGlob trimmed r.folder] ∧
        (r.rules.patterns[3]? = none ↔ ∀ b ∈ c.folders, ¬ c.flow.Unreachable r.folder b) ∧
        (∀ b ∈ c.folders, r.flowGroup.count (folderGlob trimmed b) =
          if c.flow.Unreachable r.folder b then 1 else 0) ∧
        ∀ glob ∈ r.flowGroup,
          ∃ b ∈ c.folders, c.flow.Unreachable r.folder b ∧ glob = folderGlob trimmed b := by
  refine ⟨?_, trimAlias c.appAlias, isTrimmed_trimAlias _, folderGlob_injective _, ?_⟩
  · have hnames : c.folderRules.map FolderRules.folder = c.folders.toList := by
      unfold folderRules
      rw [List.map_map]
      exact List.map_id _
    rw [hnames]
    exact c.flow.firstSeen_folders
  · intro r hr
    obtain ⟨a, -, rfl⟩ := mem_folderRules.mp hr
    refine ⟨?_, fourth_pattern_eq_none_iff, fun b hb => count_flowGroup hb, ?_⟩
    · rw [third_pattern]
      rfl
    · intro glob hglob
      rw [flowGroup_rulesOf] at hglob
      obtain ⟨b, hb, rfl⟩ := List.mem_map.mp hglob
      obtain ⟨hmem, hun⟩ := mem_disallowed.mp hb
      exact ⟨b, hmem, hun, rfl⟩

/-! ## What a linter rejects -/

/-- A specifier is rejected by the glob of the folder itself or of one that it may not import. -/
theorem forbids_rulesOf {rejects : String → String → Prop} {spec : String} :
    (c.rulesOf folder).Forbids rejects spec ↔
      ∃ d, (d = folder ∨ d ∈ (c.rulesOf folder).disallowed) ∧
        rejects (aliasGlob c.appAlias d) spec := by
  unfold FolderRules.Forbids
  rw [folder_patterns]
  by_cases hnone : (c.rulesOf folder).disallowed = []
  · simp [hnone, sameLayer]
  · simp [hnone, sameLayer, folderFlow, or_and_right, exists_or]

/-- The folders whose globs a set of rules holds. -/
def Kept (c : Config) (root d : String) : Prop :=
  d ∈ c.folders ∧ (d = root ∨ c.flow.Unreachable root d)

theorem forbids_modulePath_iff {rejects : String → String → Prop} (hrejects : RejectsBelow rejects)
    (hfolder : folder ∈ c.folders) (b m : String) :
    (c.rulesOf folder).Forbids rejects (modulePath (trimAlias c.appAlias) b m) ↔
      ∃ d, c.Kept folder d ∧ ∃ rest, b ++ "/" ++ m = d ++ "/" ++ rest := by
  rw [forbids_rulesOf]
  refine exists_congr fun d => ?_
  rw [aliasGlob_eq, hrejects.folderGlob_iff, mem_disallowed, Kept]
  refine and_congr_left fun _ => ?_
  constructor
  · rintro (rfl | ⟨hd, hun⟩)
    · exact ⟨hfolder, Or.inl rfl⟩
    · exact ⟨hd, Or.inr hun⟩
  · rintro ⟨hd, rfl | hun⟩
    · exact Or.inl rfl
    · exact Or.inr ⟨hd, hun⟩

/-- **What the globs reject.** A specifier of a folder `b` that `r.folder` may import is rejected by
the third or the fourth pattern exactly when it is a specifier of `r.folder` too, or of a folder
that `r.folder` may not import. So the patterns leave every module of `b` alone exactly when the
name of `b` lies neither below nor above the name of any such folder. -/
theorem allowed_rejected_iff {rejects : String → String → Prop} (hrejects : RejectsBelow rejects)
    (c : Config) :
    ∃ trimmed, IsTrimmed c.appAlias trimmed ∧
      ∀ r ∈ c.folderRules, ∀ b ∈ c.folders, b ≠ r.folder → c.flow.MayImport r.folder b →
        (∀ m, r.Forbids rejects (modulePath trimmed b m) ↔
          ∃ d, c.Kept r.folder d ∧ ∃ rest, b ++ "/" ++ m = d ++ "/" ++ rest) ∧
        ((∀ m, m ≠ "" → ¬ r.Forbids rejects (modulePath trimmed b m)) ↔
          ∀ d, c.Kept r.folder d → ¬ LiesBelow b d ∧ ¬ LiesBelow d b) := by
  refine ⟨trimAlias c.appAlias, isTrimmed_trimAlias _, ?_⟩
  intro r hr b hb hne hallowed
  obtain ⟨a, ha, rfl⟩ := mem_folderRules.mp hr
  have hforbids := fun m => forbids_modulePath_iff hrejects ha b m
  refine ⟨hforbids, ?_⟩
  -- a folder that is kept from the root is not one that the root may import
  have hother : ∀ d, c.Kept a d → b ≠ d := by
    rintro d ⟨-, rfl | hun⟩ rfl
    · exact hne rfl
    · exact (Flow.unreachable_iff.mp hun).2 hallowed
  constructor
  · intro hnone d hd
    rw [← not_or, ← exists_common_module_iff (hother d hd)]
    rintro ⟨m, hm, rest, heq⟩
    exact hnone m hm ((hforbids m).mpr ⟨d, hd, rest, heq⟩)
  · intro hapart m hm hrej
    obtain ⟨d, hd, rest, heq⟩ := (hforbids m).mp hrej
    have hnested := (exists_common_module_iff (hother d hd)).mp ⟨m, hm, rest, heq⟩
    obtain ⟨hbelow, habove⟩ := hapart d hd
    exact hnested.elim hbelow habove

/-! ## Nested folders -/

/-- A configuration that says nothing beyond its alias and its edges. -/
def bare (appAlias : String) (edges : List Edge) : Config where
  appAlias
  flow := ⟨edges⟩
  docs := none
  lintFiles := ["src/\x7bfolder\x7d/**"]
  moduleLayout := .folder
  overrides := []
  packageRules := []

/-- A linter that knows no other patterns. -/
def rejectsBelow (pattern spec : String) : Prop :=
  ∃ dir rest, pattern = dir ++ "/**" ∧ spec = dir ++ "/" ++ rest

theorem rejectsBelow_spec : RejectsBelow rejectsBelow := by
  intro dir spec
  constructor
  · rintro ⟨dir', rest, h, rfl⟩
    have h := congrArg String.toList h
    simp only [String.toList_append] at h
    exact ⟨rest, by rw [String.toList_injective (List.append_cancel_right h)]⟩
  · rintro ⟨rest, rfl⟩
    exact ⟨dir, rest, rfl, rfl⟩

/-- The folder `ui` holds another, which `pages` may not import. -/
def layeredFolders : Config :=
  bare "~app/" [{ source := "pages", target := "ui" },
    { source := "ui", target := "ui/icons", options := { selfOnly := true } }]

theorem layered_unreachable : layeredFolders.flow.Unreachable "pages" "ui/icons" := by
  have hstep : ∀ x y, layeredFolders.flow.PlainStep x y → y = "ui" := by
    rintro x y ⟨e, he, hplain, rfl, rfl⟩
    simp only [layeredFolders, bare, List.mem_cons, List.not_mem_nil, or_false] at he
    rcases he with rfl | rfl
    · rfl
    · exact absurd hplain (by decide)
  refine ⟨by decide, by unfold Flow.HasEdge; decide, fun hpath => ?_⟩
  obtain ⟨x, -, hlast⟩ := Relation.TransGen.tail'_iff.mp hpath
  exact absurd (hstep _ _ hlast) (by decide)

theorem validate_layeredFolders : validate layeredFolders.toJson = .ok layeredFolders := by
  rfl

theorem layered_import_rejected :
    RejectsBelow rejectsBelow ∧ validate layeredFolders.toJson = .ok layeredFolders ∧
    ∃ trimmed, IsTrimmed layeredFolders.appAlias trimmed ∧
      ∃ r ∈ layeredFolders.folderRules, r.folder = "pages" ∧
        r.Forbids rejectsBelow (modulePath trimmed "ui" "icons/Star") ∧
        ¬ r.Forbids rejectsBelow (modulePath trimmed "ui" "Button") := by
  refine ⟨rejectsBelow_spec, validate_layeredFolders, ?_⟩
  obtain ⟨trimmed, htrimmed, h⟩ := allowed_rejected_iff rejectsBelow_spec layeredFolders
  have hpages : "pages" ∈ layeredFolders.folders := Flow.mem_folders.mpr (by decide)
  have hr := mem_folderRules.mpr ⟨"pages", hpages, rfl⟩
  have hedge : layeredFolders.flow.HasEdge "pages" "ui" := ⟨_, List.mem_cons_self, rfl, rfl⟩
  obtain ⟨hforbids, -⟩ := h _ hr "ui" (Flow.mem_folders.mpr (by decide)) (by decide) (Or.inl hedge)
  refine ⟨trimmed, htrimmed, _, hr, rfl, ?_, ?_⟩
  · exact (hforbids _).mpr ⟨"ui/icons",
      ⟨Flow.mem_folders.mpr (by decide), Or.inr layered_unreachable⟩, "Star", rfl⟩
  · intro hrej
    obtain ⟨d, ⟨hd, hkept⟩, rest, heq⟩ := (hforbids _).mp hrej
    have hd : d = "pages" ∨ d = "ui" ∨ d = "ui" ∨ d = "ui/icons" := by
      simpa [Flow.mem_folders, Config.folders, layeredFolders, bare, Flow.endpoints] using hd
    have hchars := congrArg String.toList heq
    rcases hd with rfl | rfl | rfl | rfl
    · simp at hchars
    · exact hkept.elim (by decide) fun hun => hun.2.1 hedge
    · exact hkept.elim (by decide) fun hun => hun.2.1 hedge
    · simp at hchars

/-- One folder inside another, and an edge from the outer to the inner one. -/
def nestedFolders : Config :=
  bare "@" [{ source := "ui", target := "ui/icons" }]

theorem validate_nestedFolders : validate nestedFolders.toJson = .ok nestedFolders := by
  rfl

/-- The glob of a folder rejects what the folder may import from a folder inside it. -/
theorem nested_import_rejected :
    validate nestedFolders.toJson = .ok nestedFolders ∧ IsTrimmed nestedFolders.appAlias "@" ∧
    ∃ r ∈ nestedFolders.folderRules, r.folder = "ui" ∧ "ui/icons" ∈ nestedFolders.folders ∧
      nestedFolders.flow.HasEdge "ui" "ui/icons" ∧
      ∀ rejects, RejectsBelow rejects → r.Forbids rejects (modulePath "@" "ui/icons" "Star") := by
  have hui : "ui" ∈ nestedFolders.folders := Flow.mem_folders.mpr (by decide)
  refine ⟨validate_nestedFolders, ⟨⟨0, rfl⟩, by decide⟩, nestedFolders.rulesOf "ui",
    mem_folderRules.mpr ⟨"ui", hui, rfl⟩, rfl, Flow.mem_folders.mpr (by decide),
    ⟨_, List.mem_singleton_self _, rfl, rfl⟩, ?_⟩
  intro rejects hrejects
  exact (forbids_modulePath_iff hrejects hui "ui/icons" "Star").mpr
    ⟨"ui", ⟨hui, Or.inl rfl⟩, "icons/Star", rfl⟩

end Config

end FolderFlow
