import FolderFlow.Restriction.Basic
import Mathlib.Data.List.DropRight

/-!
# Import globs

The glob of a folder is made of the alias, without the slashes at its end, and of the name of the
folder as it stands, so different folders have different globs (`folderGlob_injective`).

Names may hold slashes. The modules of one folder lie among those of another when one name lies
below the other (`exists_common_module_iff`), and a glob cannot tell them apart.
-/

namespace FolderFlow

/-! ## The alias -/

/-- `trimmed` is the alias without the slashes at its end. -/
def IsTrimmed (appAlias trimmed : String) : Prop :=
  (∃ n, appAlias.toList = trimmed.toList ++ List.replicate n '/') ∧
    trimmed.toList.getLast? ≠ some '/'

def trimAlias (appAlias : String) : String :=
  String.ofList (appAlias.toList.rdropWhile (· == '/'))

theorem isTrimmed_trimAlias (appAlias : String) : IsTrimmed appAlias (trimAlias appAlias) := by
  unfold IsTrimmed trimAlias
  rw [String.toList_ofList]
  refine ⟨⟨(appAlias.toList.rtakeWhile (· == '/')).length, ?_⟩, ?_⟩
  · have hslashes : appAlias.toList.rtakeWhile (· == '/') =
        List.replicate (appAlias.toList.rtakeWhile (· == '/')).length '/' :=
      List.eq_replicate_iff.mpr ⟨rfl, fun c hc => by simpa using List.mem_rtakeWhile_imp hc⟩
    rw [← hslashes, List.rdropWhile, List.rtakeWhile, ← List.reverse_append,
      List.takeWhile_append_dropWhile, List.reverse_reverse]
  · intro hlast
    obtain ⟨front, hfront⟩ := List.getLast?_eq_some_iff.mp hlast
    have hnot := List.rdropWhile_last_not (· == '/') appAlias.toList (by simp [hfront])
    simp [hfront] at hnot

/-! ## Globs -/

/-- The glob of what lies below a folder. -/
def folderGlob (trimmed folder : String) : String :=
  trimmed ++ "/" ++ folder ++ "/**"

theorem aliasGlob_eq (appAlias folder : String) :
    aliasGlob appAlias folder = folderGlob (trimAlias appAlias) folder :=
  rfl

theorem folderGlob_injective (trimmed : String) : Function.Injective (folderGlob trimmed) := by
  intro a b h
  have h := congrArg String.toList h
  simp only [folderGlob, String.toList_append, List.append_assoc, List.append_cancel_left_eq] at h
  exact String.toList_injective (List.append_cancel_right h)

/-! ## What a glob covers -/

/-- The specifier of a module of a folder. -/
def modulePath (trimmed folder module : String) : String :=
  trimmed ++ "/" ++ folder ++ "/" ++ module

/-- The name `inner` is that of something inside the folder `outer`. -/
def LiesBelow (inner outer : String) : Prop :=
  ∃ rest, inner = outer ++ "/" ++ rest

/-- A pattern `dir/**` rejects the import specifiers that start with `dir/`, and no others. -/
def RejectsBelow (rejects : String → String → Prop) : Prop :=
  ∀ dir spec, rejects (dir ++ "/**") spec ↔ ∃ rest, spec = dir ++ "/" ++ rest

/-- The glob of a folder covers a module of another when the module is also one of the first. -/
theorem RejectsBelow.folderGlob_iff {rejects : String → String → Prop} (h : RejectsBelow rejects)
    (trimmed folder other module : String) :
    rejects (folderGlob trimmed folder) (modulePath trimmed other module) ↔
      ∃ rest, other ++ "/" ++ module = folder ++ "/" ++ rest := by
  unfold folderGlob modulePath
  rw [h]
  refine exists_congr fun rest => ?_
  rw [← String.toList_inj, ← String.toList_inj]
  simp only [String.toList_append, List.append_assoc, List.append_cancel_left_eq]

/-- Two different folders share a module exactly when the name of one lies below that of the
other. -/
theorem exists_common_module_iff {a b : String} (hne : a ≠ b) :
    (∃ m, m ≠ "" ∧ ∃ rest, a ++ "/" ++ m = b ++ "/" ++ rest) ↔ LiesBelow a b ∨ LiesBelow b a := by
  constructor
  · rintro ⟨m, -, rest, h⟩
    have hslash : "/".toList = ['/'] := rfl
    have h := congrArg String.toList h
    simp only [String.toList_append, List.append_assoc, hslash, List.singleton_append] at h
    rcases List.append_eq_append_iff.mp h with ⟨more, hb, hm⟩ | ⟨more, ha, hm⟩
    · cases more with
      | nil => exact absurd (String.toList_injective (by simpa using hb)).symm hne
      | cons c more =>
        obtain ⟨rfl, -⟩ := List.cons.inj hm
        exact Or.inr ⟨String.ofList more, String.toList_injective (by simp [hb])⟩
    · cases more with
      | nil => exact absurd (String.toList_injective (by simpa using ha)) hne
      | cons c more =>
        obtain ⟨rfl, -⟩ := List.cons.inj hm
        exact Or.inl ⟨String.ofList more, String.toList_injective (by simp [ha])⟩
  · rintro (⟨rest, rfl⟩ | ⟨rest, rfl⟩)
    · refine ⟨"index", by decide, rest ++ "/" ++ "index", ?_⟩
      simp only [String.append_assoc]
    · refine ⟨rest ++ "/" ++ "index", ?_, "index", ?_⟩
      · intro hempty
        have := congrArg String.toList hempty
        simp at this
      · simp only [String.append_assoc]

end FolderFlow
