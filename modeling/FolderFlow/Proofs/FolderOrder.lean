import FolderFlow.Flow.Basic
import Mathlib.Data.Finset.Card
import Mathlib.Data.List.Basic

/-!
# The order of folders

The folders of a set stand in the order in which they were first inserted: a folder that is there
already does not move (`FirstSeen.insert`), so the list follows the first places of its members
among all that was inserted (`firstSeen_ofList`).

`FolderTable.holds_insertions`: after any row of insertions the list and the index have the same
names, and both know exactly what was inserted. It comes from `Holds`, which says so of one table
and is kept by an insertion (`Holds.insert`), and so by a row of them (`Holds.insertAll`).
-/

namespace FolderFlow

/-- `distinct` holds the members of `seen`, each once, by the place where they stand first. -/
structure FirstSeen (seen distinct : List String) : Prop where
  mem_iff : ∀ f, f ∈ distinct ↔ f ∈ seen
  nodup : distinct.Nodup
  order : distinct.Pairwise fun f g => seen.idxOf f < seen.idxOf g

namespace FirstSeen

variable {seen distinct : List String}

theorem nil : FirstSeen [] [] :=
  ⟨fun _ => Iff.rfl, List.nodup_nil, List.Pairwise.nil⟩

/-- What stands behind does not change the first place of what was seen before. -/
theorem order_append (h : FirstSeen seen distinct) (folder : String) :
    distinct.Pairwise fun f g => (seen ++ [folder]).idxOf f < (seen ++ [folder]).idxOf g := by
  refine h.order.imp_of_mem fun {f g} hf hg hlt => ?_
  rwa [List.idxOf_append_of_mem ((h.mem_iff f).mp hf),
    List.idxOf_append_of_mem ((h.mem_iff g).mp hg)]

/-- A folder that has been seen before is not written again. -/
theorem seen_again {folder : String} (h : FirstSeen seen distinct) (hold : folder ∈ distinct) :
    FirstSeen (seen ++ [folder]) distinct := by
  refine ⟨fun f => ?_, h.nodup, h.order_append folder⟩
  rw [List.mem_append, List.mem_singleton, h.mem_iff]
  constructor
  · exact Or.inl
  · rintro (hf | rfl)
    · exact hf
    · exact (h.mem_iff _).mp hold

/-- A new folder stands behind the others. -/
theorem seen_new {folder : String} (h : FirstSeen seen distinct) (hnew : folder ∉ distinct) :
    FirstSeen (seen ++ [folder]) (distinct ++ [folder]) := by
  have hunseen : folder ∉ seen := mt (h.mem_iff folder).mpr hnew
  refine ⟨fun f => ?_, ?_, List.pairwise_append.mpr
    ⟨h.order_append folder, List.pairwise_singleton _ _, ?_⟩⟩
  · rw [List.mem_append, List.mem_append, h.mem_iff]
  · exact h.nodup.append (List.nodup_singleton folder) (List.disjoint_singleton.mpr hnew)
  · intro f hf g hg
    have hf := (h.mem_iff f).mp hf
    rw [List.mem_singleton.mp hg, List.idxOf_append_of_mem hf,
      List.idxOf_append_of_notMem hunseen]
    exact Nat.lt_add_right _ (List.idxOf_lt_length_of_mem hf)

end FirstSeen

/-! ## Rows of insertions -/

namespace FolderTable

variable {seen folders : List String} {t : FolderTable}

/-- Inserts folders one after the other; also tells which of them were new. -/
def insertAll (t : FolderTable) : List String → List Bool × FolderTable
  | [] => ([], t)
  | folder :: folders =>
    let rest := (t.insert folder).2.insertAll folders
    ((t.insert folder).1 :: rest.1, rest.2)

/-- The table holds what was inserted, in the order in which it was inserted first. -/
structure Holds (seen : List String) (t : FolderTable) : Prop where
  agrees : t.Agrees
  firstSeen : FirstSeen seen t.ordered

theorem holds_empty : Holds [] empty :=
  ⟨agrees_empty, .nil⟩

namespace Holds

theorem contains_iff (h : t.Holds seen) {folder : String} :
    t.contains folder = true ↔ folder ∈ seen := by
  rw [h.agrees.contains_iff, h.firstSeen.mem_iff]

theorem insert (h : t.Holds seen) (folder : String) :
    (t.insert folder).2.Holds (seen ++ [folder]) := by
  refine ⟨h.agrees.insert folder, ?_⟩
  rw [h.agrees.ordered_insert]
  split
  · rename_i hold
    exact h.firstSeen.seen_again hold
  · rename_i hnew
    exact h.firstSeen.seen_new hnew

/-- An insertion tells whether the folder was not inserted before. -/
theorem insert_fst (h : t.Holds seen) (folder : String) :
    (t.insert folder).1 = decide (folder ∉ seen) := by
  by_cases hmem : folder ∈ t.ordered
  · have hseen := (h.firstSeen.mem_iff folder).mp hmem
    rw [insert_of_mem h.agrees hmem, decide_eq_false (not_not_intro hseen)]
  · have hunseen := mt (h.firstSeen.mem_iff folder).mpr hmem
    rw [insert_of_notMem h.agrees hmem, decide_eq_true hunseen]

theorem insertAll (h : t.Holds seen) (folders : List String) :
    (t.insertAll folders).2.Holds (seen ++ folders) := by
  induction folders generalizing seen t with
  | nil => rwa [List.append_nil]
  | cons folder folders ih =>
    rw [List.append_cons]
    exact ih (h.insert folder)

theorem insertAll_fst (h : t.Holds seen) (folders : List String) :
    (t.insertAll folders).1 =
      folders.mapIdx fun i folder => decide (folder ∉ seen ++ folders.take i) := by
  induction folders generalizing seen t with
  | nil => rfl
  | cons folder folders ih =>
    calc (t.insertAll (folder :: folders)).1
        = (t.insert folder).1 :: ((t.insert folder).2.insertAll folders).1 := rfl
      _ = decide (folder ∉ seen) :: folders.mapIdx fun i other =>
            decide (other ∉ seen ++ [folder] ++ folders.take i) := by
          rw [h.insert_fst, ih (h.insert folder)]
      _ = _ := by
          simp only [List.mapIdx_cons, List.take_zero, List.take_succ_cons, List.append_assoc,
            List.append_nil, List.singleton_append]
          rfl

/-- The length of the list is the number of different folders. -/
theorem size_eq_card (h : t.Holds seen) : t.size = seen.toFinset.card := by
  have hsame : t.ordered.toFinset = seen.toFinset := by
    ext folder
    rw [List.mem_toFinset, List.mem_toFinset, h.firstSeen.mem_iff]
  rw [size, ← hsame, List.toFinset_card_of_nodup h.agrees.nodup]

end Holds

end FolderTable

/-! ## Sets and flows -/

theorem FolderSet.table_foldl_insert (s : FolderSet) (folders : List String) :
    (folders.foldl FolderSet.insert s).table = (s.table.insertAll folders).2 := by
  induction folders generalizing s with
  | nil => rfl
  | cons f fs ih => exact ih (s.insert f)

theorem firstSeen_ofList (folders : List String) :
    FirstSeen folders (FolderSet.ofList folders).toList := by
  rw [FolderSet.ofList, FolderSet.toList, FolderSet.table_foldl_insert]
  exact (FolderTable.holds_empty.insertAll folders).firstSeen

theorem Flow.firstSeen_folders (flow : Flow) : FirstSeen flow.endpoints flow.folders.toList :=
  firstSeen_ofList flow.endpoints

theorem Flow.mem_folders {flow : Flow} {folder : String} :
    folder ∈ flow.folders ↔ folder ∈ flow.endpoints :=
  FolderSet.mem_ofList

theorem Flow.mem_endpoints {flow : Flow} {folder : String} :
    folder ∈ flow.endpoints ↔ ∃ e ∈ flow.edges, folder = e.source ∨ folder = e.target := by
  simp only [endpoints, List.mem_flatMap, List.mem_cons, List.not_mem_nil, or_false]

/-- **What is inserted is held.** After any row of insertions into the empty table the list has no
repeats and the index has the same names. The table knows a folder exactly when it was inserted, and
each insertion told whether its folder had not been inserted before. The list has the folders in the
order of their first insertion. The folders of a flow are held so, source before target, edge by
edge; both ends of an edge are among them, in whatever order the edges are written. -/
theorem FolderTable.holds_insertions :
    (∀ inserted : List String,
      let (news, t) := empty.insertAll inserted
      t.ordered.Nodup ∧ t.index.Perm t.ordered ∧ t.size = inserted.toFinset.card ∧
      (∀ folder, t.contains folder = true ↔ folder ∈ inserted) ∧
      news = inserted.mapIdx (fun i folder => decide (folder ∉ inserted.take i)) ∧
      FirstSeen inserted t.ordered) ∧
    ∀ flow : Flow,
      flow.folders.table = (empty.insertAll flow.endpoints).2 ∧
      FirstSeen flow.endpoints flow.folders.toList ∧
      (∀ e ∈ flow.edges, e.source ∈ flow.folders ∧ e.target ∈ flow.folders) ∧
      ∀ edges : List Edge, edges.Perm flow.edges →
        ∀ folder, folder ∈ (Flow.mk edges).folders ↔ folder ∈ flow.folders := by
  refine ⟨fun inserted => ?_, fun flow => ⟨?_, flow.firstSeen_folders, ?_, ?_⟩⟩
  · have h : (empty.insertAll inserted).2.Holds inserted := holds_empty.insertAll inserted
    refine ⟨h.agrees.nodup, h.agrees.perm_index, h.size_eq_card, fun _ => h.contains_iff, ?_,
      h.firstSeen⟩
    exact holds_empty.insertAll_fst inserted
  · exact FolderSet.table_foldl_insert .empty flow.endpoints
  · intro e he
    rw [Flow.mem_folders, Flow.mem_folders, Flow.mem_endpoints, Flow.mem_endpoints]
    exact ⟨⟨e, he, Or.inl rfl⟩, ⟨e, he, Or.inr rfl⟩⟩
  · intro edges hperm folder
    rw [Flow.mem_folders, Flow.mem_folders, Flow.mem_endpoints, Flow.mem_endpoints]
    exact exists_congr fun e => and_congr_left' hperm.mem_iff

/-- Two folders that may import each other; `ui` may also import itself. -/
def mutualFlow : Flow where
  edges := [{ source := "ui", target := "hooks" }, { source := "ui", target := "ui" },
    { source := "hooks", target := "ui" }]

/-- With its edges turned around, `mutualFlow` has the same folders in another order. -/
theorem FolderTable.mutual_folders_held :
    mutualFlow.edges.reverse.Perm mutualFlow.edges ∧
    (Flow.mk mutualFlow.edges.reverse).folders.toList ≠ mutualFlow.folders.toList ∧
    (∀ folder, folder ∈ (Flow.mk mutualFlow.edges.reverse).folders ↔ folder ∈ mutualFlow.folders) ∧
    { source := "hooks", target := "ui" } ∈ mutualFlow.edges ∧
    "hooks" ∈ mutualFlow.folders ∧ "ui" ∈ mutualFlow.folders := by
  have hperm : mutualFlow.edges.reverse.Perm mutualFlow.edges := List.reverse_perm _
  have hmem : { source := "hooks", target := "ui" } ∈ mutualFlow.edges := by decide
  obtain ⟨-, -, hends, horder⟩ := holds_insertions.2 mutualFlow
  exact ⟨hperm, by decide, horder _ hperm, hmem, hends _ hmem⟩

end FolderFlow
