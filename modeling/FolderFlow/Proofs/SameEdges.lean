import FolderFlow.Proofs.Enforcement
import Mathlib.Data.List.Forall2
import Mathlib.Data.List.Pairwise

/-!
# Flows that are written differently

A flow says which folders an edge joins and whether the edge is for its source alone. The order of
the edges, repeats, labels and descriptions say nothing about imports, and the generated rules do
not depend on them (`Config.folderRules_of_sameEdges`): with the same edges each folder has the same
rules but for the order of the folders that it may not import, and that order is the one in which
the folders are named first.
-/

namespace FolderFlow

/-! ## What a flow says -/

namespace Flow

/-- An edge leads from `source` to `target`, for its source alone or not. -/
def Joins (flow : Flow) (source target : String) (selfOnly : Bool) : Prop :=
  ∃ e ∈ flow.edges, e.source = source ∧ e.target = target ∧ e.options.selfOnly = selfOnly

/-- The edges of both flows are the same, in whatever order, however often and with whatever labels
and descriptions they are written. -/
def SameEdges (flow flow' : Flow) : Prop :=
  ∀ source target selfOnly, flow.Joins source target selfOnly ↔ flow'.Joins source target selfOnly

variable {flow flow' : Flow} {root folder a b : String}

theorem hasEdge_iff_joins : flow.HasEdge a b ↔ ∃ selfOnly, flow.Joins a b selfOnly := by
  constructor
  · rintro ⟨e, he, hs, ht⟩
    exact ⟨e.options.selfOnly, e, he, hs, ht, rfl⟩
  · rintro ⟨_, e, he, hs, ht, -⟩
    exact ⟨e, he, hs, ht⟩

theorem plainStep_iff_joins : flow.PlainStep a b ↔ flow.Joins a b false := by
  unfold PlainStep Joins Edge.isPlain
  refine exists_congr fun e => and_congr_right fun _ => ?_
  rw [Bool.not_eq_true', and_comm, and_assoc]

theorem mem_endpoints_iff : folder ∈ flow.endpoints ↔
    ∃ other, flow.HasEdge folder other ∨ flow.HasEdge other folder := by
  rw [mem_endpoints]
  constructor
  · rintro ⟨e, he, rfl | rfl⟩
    · exact ⟨e.target, Or.inl ⟨e, he, rfl, rfl⟩⟩
    · exact ⟨e.source, Or.inr ⟨e, he, rfl, rfl⟩⟩
  · rintro ⟨other, ⟨e, he, rfl, -⟩ | ⟨e, he, -, rfl⟩⟩
    · exact ⟨e, he, Or.inl rfl⟩
    · exact ⟨e, he, Or.inr rfl⟩

namespace SameEdges

theorem hasEdge_iff (h : flow.SameEdges flow') : flow.HasEdge a b ↔ flow'.HasEdge a b := by
  rw [hasEdge_iff_joins, hasEdge_iff_joins]
  exact exists_congr fun selfOnly => h a b selfOnly

theorem plainPath_eq (h : flow.SameEdges flow') : flow.PlainPath = flow'.PlainPath := by
  have hstep : flow.PlainStep = flow'.PlainStep := by
    funext a b
    rw [plainStep_iff_joins, plainStep_iff_joins]
    exact propext (h a b false)
  rw [PlainPath, PlainPath, hstep]

theorem unreachable_iff (h : flow.SameEdges flow') :
    flow.Unreachable root folder ↔ flow'.Unreachable root folder := by
  rw [Unreachable, Unreachable, h.hasEdge_iff, h.plainPath_eq]

theorem mem_folders_iff (h : flow.SameEdges flow') :
    folder ∈ flow.folders ↔ folder ∈ flow'.folders := by
  rw [mem_folders, mem_folders, mem_endpoints_iff, mem_endpoints_iff]
  exact exists_congr fun other => or_congr h.hasEdge_iff h.hasEdge_iff

theorem perm_folders (h : flow.SameEdges flow') :
    flow.folders.toList.Perm flow'.folders.toList :=
  (List.perm_ext_iff_of_nodup flow.folders.nodup flow'.folders.nodup).mpr
    fun _ => h.mem_folders_iff

end SameEdges

end Flow

/-- What was inserted fixes the list of its members by their first places. -/
theorem FirstSeen.unique {seen distinct distinct' : List String} (h : FirstSeen seen distinct)
    (h' : FirstSeen seen distinct') : distinct = distinct' := by
  have hperm : distinct.Perm distinct' :=
    (List.perm_ext_iff_of_nodup h.nodup h'.nodup).mpr
      fun f => (h.mem_iff f).trans (h'.mem_iff f).symm
  exact hperm.eq_of_pairwise (fun f g _ _ hfg hgf => absurd hfg (Nat.lt_asymm hgf)) h.order h'.order

/-! ## What the rules say -/

/-- Two sets of rules for one folder that differ at most in the order of the folders that it may not
import. -/
structure FolderRules.Agrees (r r' : FolderRules) : Prop where
  folder : r.folder = r'.folder
  files : r.files = r'.files
  paths : r.rules.paths = r'.rules.paths
  overrides : r.overrides = r'.overrides
  patterns : r.rules.patterns.take 3 = r'.rules.patterns.take 3
  /-- The fourth pattern is the last; it is missing in both or has the same message in both. -/
  last : (r.rules.patterns.drop 3).map PatternRestriction.message =
    (r'.rules.patterns.drop 3).map PatternRestriction.message
  disallowed : r.disallowed.Nodup ∧ r'.disallowed.Nodup ∧ r.disallowed.Perm r'.disallowed
  flowGroup : r.flowGroup.Nodup ∧ r'.flowGroup.Nodup ∧ r.flowGroup.Perm r'.flowGroup

namespace Config

variable {c : Config} {flow : Flow}

theorem nodup_flowGroup (c : Config) (folder : String) : (c.rulesOf folder).flowGroup.Nodup := by
  rw [flowGroup_rulesOf]
  exact (nodup_disallowed c folder).map (folderGlob_injective _)

theorem perm_disallowed (h : c.flow.SameEdges flow) (folder : String) :
    (c.rulesOf folder).disallowed.Perm ({ c with flow }.rulesOf folder).disallowed := by
  refine (List.perm_ext_iff_of_nodup (nodup_disallowed _ _) (nodup_disallowed _ _)).mpr fun b => ?_
  rw [mem_disallowed, mem_disallowed]
  exact and_congr h.mem_folders_iff h.unreachable_iff

theorem drop_three_patterns (c : Config) (folder : String) :
    (c.rulesOf folder).rules.patterns.drop 3 =
      if (c.rulesOf folder).disallowed = [] then []
      else [folderFlow c.appAlias (c.rulesOf folder).disallowed] := by
  have hdrop := congrArg (List.drop 1) (folder_patterns c folder)
  rwa [List.drop_drop, List.drop_one, List.tail_cons] at hdrop

theorem agrees_rulesOf (h : c.flow.SameEdges flow) (folder : String) :
    (c.rulesOf folder).Agrees ({ c with flow }.rulesOf folder) := by
  have hperm := perm_disallowed h folder
  refine ⟨rfl, rfl, rfl, rfl, rfl, ?_, ⟨nodup_disallowed _ _, nodup_disallowed _ _, hperm⟩,
    nodup_flowGroup _ _, nodup_flowGroup _ _, ?_⟩
  · rw [drop_three_patterns, drop_three_patterns]
    by_cases hnone : (c.rulesOf folder).disallowed = []
    · rw [if_pos hnone, if_pos (List.nil_perm.mp (hnone ▸ hperm))]
    · have hsome : ({ c with flow }.rulesOf folder).disallowed ≠ [] :=
        fun hnone' => hnone (List.perm_nil.mp (hnone' ▸ hperm))
      rw [if_neg hnone, if_neg hsome]
      rfl
  · rw [flowGroup_rulesOf, flowGroup_rulesOf]
    exact hperm.map _

/-- Folders in the same order are forbidden in the same order. -/
theorem rulesOf_eq (h : c.flow.SameEdges flow)
    (horder : c.flow.folders.toList = flow.folders.toList) (folder : String) :
    c.rulesOf folder = { c with flow }.rulesOf folder := by
  have hdisallowed : c.flow.disallowedImports c.folders folder =
      flow.disallowedImports flow.folders folder := by
    rw [Flow.disallowedImports_eq, Flow.disallowedImports_eq, ← horder]
    refine List.filter_congr fun f _ => ?_
    rw [decide_eq_decide, ← Flow.unreachable_iff, ← Flow.unreachable_iff, h.unreachable_iff]
  simp only [rulesOf, hdisallowed]
  rfl

/-- **Only what the flow says counts.** Two configurations that differ in nothing but how their
edges are written have the same rules, folder by folder, but for the order of the entries and of the
folders that an entry forbids; neither list has repeats. The entries are those of the folders of the
flow, in folder order. When the folders are first named in the same order, the rules are the same
altogether. -/
theorem folderRules_of_sameEdges (h : c.flow.SameEdges flow) :
    c.folderRules.map FolderRules.folder = c.folders.toList ∧
    { c with flow }.folderRules.map FolderRules.folder = flow.folders.toList ∧
    (c.folderRules.map FolderRules.folder).Nodup ∧
    (∃ matched, matched.Perm { c with flow }.folderRules ∧
      List.Forall₂ FolderRules.Agrees c.folderRules matched) ∧
    ∀ order, FirstSeen c.flow.endpoints order → FirstSeen flow.endpoints order →
      c.folderRules = { c with flow }.folderRules := by
  refine ⟨folderRules_folders c, folderRules_folders _, ?_,
    ⟨c.folders.toList.map { c with flow }.rulesOf, h.perm_folders.map _, ?_⟩, ?_⟩
  · rw [folderRules_folders]
    exact c.folders.nodup
  · refine List.forall₂_map_left_iff.mpr (List.forall₂_map_right_iff.mpr ?_)
    exact List.forall₂_same.mpr fun folder _ => agrees_rulesOf h folder
  · intro order horder horder'
    have hlist : c.flow.folders.toList = flow.folders.toList :=
      (c.flow.firstSeen_folders.unique horder).trans (horder'.unique flow.firstSeen_folders)
    unfold folderRules
    rw [funext (rulesOf_eq h hlist)]
    exact congrArg (List.map _) hlist

/-! ## The same edges, shuffled -/

/-- `pages` may import `ui` and what lies behind it; `hooks` may import `ui` alone. -/
def tidyFolders : Config :=
  bare "@" [{ source := "pages", target := "ui" }, { source := "ui", target := "util" },
    { source := "hooks", target := "ui", options := { selfOnly := true } }]

/-- The edges of `tidyFolders` backwards, one of them twice, with labels. -/
def shuffledFlow : Flow where
  edges := [{ source := "hooks", target := "ui", options := { selfOnly := true } },
    { source := "ui", target := "util", options := { label := some "uses" } },
    { source := "pages", target := "ui", options := { description := some "renders" } },
    { source := "ui", target := "util" }]

theorem sameEdges_shuffledFlow : tidyFolders.flow.SameEdges shuffledFlow := by
  intro source target selfOnly
  simp only [Flow.Joins, tidyFolders, bare, shuffledFlow, List.mem_cons, List.not_mem_nil, or_false,
    exists_eq_or_imp, exists_eq_left]
  tauto

theorem shuffled_rules_agree :
    tidyFolders.flow.SameEdges shuffledFlow ∧
    tidyFolders.folders.toList ≠ shuffledFlow.folders.toList ∧
    ∃ matched, matched.Perm { tidyFolders with flow := shuffledFlow }.folderRules ∧
      List.Forall₂ FolderRules.Agrees tidyFolders.folderRules matched := by
  obtain ⟨-, -, -, hmatched, -⟩ := folderRules_of_sameEdges sameEdges_shuffledFlow
  exact ⟨sameEdges_shuffledFlow, by decide, hmatched⟩

end Config

end FolderFlow
