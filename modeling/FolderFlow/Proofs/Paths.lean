import FolderFlow.Proofs.TreeFrame
import Mathlib.Data.List.Basic

/-!
# Names in a directory

The path of a name in a directory takes the steps to the directory and one more
(`Path.steps_join`), so what it leads to lies in the directory itself
(`FileTree.destination_join`). `FileTree.readText_join_eq_ok_iff` says when a text is read there.
-/

namespace FolderFlow

namespace Path

variable {dir name : String}

/-! ## Cutting a path -/

theorem splitSlashes_ne_nil (cs : List Char) : splitSlashes cs ≠ [] := by
  cases cs with
  | nil => exact List.cons_ne_nil _ _
  | cons c cs =>
    rw [splitSlashes]
    split
    · exact List.cons_ne_nil _ _
    · split
      · exact List.cons_ne_nil _ _
      · exact List.cons_ne_nil _ _

theorem splitSlashes_of_notMem {cs : List Char} (h : '/' ∉ cs) : splitSlashes cs = [cs] := by
  induction cs with
  | nil => rfl
  | cons c cs ih =>
    obtain ⟨hc, hcs⟩ := not_or.mp (mt List.mem_cons.mpr h)
    rw [splitSlashes, if_neg (by simpa using Ne.symm hc), ih hcs]

theorem splitSlashes_append (as bs : List Char) :
    splitSlashes (as ++ '/' :: bs) = splitSlashes as ++ splitSlashes bs := by
  induction as with
  | nil => rfl
  | cons a as ih =>
    rw [List.cons_append, splitSlashes, splitSlashes, ih]
    split
    · rfl
    · cases hparts : splitSlashes as with
      | nil => exact absurd hparts (splitSlashes_ne_nil as)
      | cons part parts => rfl

/-! ## Names -/

/-- A name that a step leads down to. -/
structure IsName (name : String) : Prop where
  noSlash : '/' ∉ name.toList
  step : Step.ofText? name = some (.down name)

namespace IsName

theorem not_isAbsolute (h : IsName name) : isAbsolute name = false := by
  have hhead : name.toList.head? ≠ some '/' := fun hslash => h.noSlash (List.mem_of_head? hslash)
  simpa [isAbsolute] using hhead

theorem not_endsInSlash (h : IsName name) : endsInSlash name = false := by
  have hlast : name.toList.getLast? ≠ some '/' :=
    fun hslash => h.noSlash (List.mem_of_getLast? hslash)
  simpa [endsInSlash] using hlast

theorem ne_empty (h : IsName name) : name ≠ "" := by
  rintro rfl
  exact absurd h.step (by simp [Step.ofText?])

theorem steps_eq (h : IsName name) : steps name = [.down name] := by
  rw [steps, splitSlashes_of_notMem h.noSlash]
  simp [h.step]

theorem steps_behind (h : IsName name) (front : String) :
    steps (front ++ "/" ++ name) = .down name :: steps front := by
  have hsplit : splitSlashes (front ++ "/" ++ name).toList =
      splitSlashes front.toList ++ [name.toList] := by
    rw [← splitSlashes_of_notMem h.noSlash, ← splitSlashes_append]
    simp
  rw [steps, steps, hsplit]
  simp [h.step]

end IsName

/-! ## Names in a directory -/

theorem steps_slash (front : String) : steps (front ++ "/") = steps front := by
  have hsplit : splitSlashes (front ++ "/").toList = splitSlashes front.toList ++ [[]] := by
    rw [String.toList_append]
    exact splitSlashes_append front.toList []
  rw [steps, steps, hsplit, List.filterMap_append]
  exact congrArg List.reverse (List.append_nil _)

/-- The path of a name in a directory: the name itself, or behind a slash. -/
theorem join_cases (h : IsName name) (dir : String) :
    (dir = "" ∧ join dir name = name) ∨
      ∃ front, join dir name = front ++ "/" ++ name ∧
        (dir = front ++ "/" ∨ (dir = front ∧ dir ≠ "")) := by
  rw [join, h.not_isAbsolute, Bool.false_or]
  split
  · rename_i hempty
    exact Or.inl ⟨String.isEmpty_iff.mp hempty, rfl⟩
  · rename_i hempty
    refine Or.inr ?_
    split
    · rename_i hslash
      obtain ⟨front, hfront⟩ := List.getLast?_eq_some_iff.mp (by simpa [endsInSlash] using hslash)
      have hdir : dir = String.ofList front ++ "/" := String.toList_inj.mp (by simp [hfront])
      exact ⟨String.ofList front, by rw [← hdir], Or.inl hdir⟩
    · exact ⟨dir, rfl, Or.inr ⟨rfl, mt String.isEmpty_iff.mpr hempty⟩⟩

/-- The steps to a name in a directory are those to the directory and one more. -/
theorem steps_join (h : IsName name) (dir : String) :
    steps (join dir name) = .down name :: steps dir := by
  rcases join_cases h dir with ⟨rfl, hjoin⟩ | ⟨front, hjoin, hdir⟩
  · rw [hjoin, h.steps_eq]
    rfl
  · rw [hjoin, h.steps_behind]
    rcases hdir with rfl | ⟨rfl, -⟩
    · rw [steps_slash]
    · rfl

theorem isAbsolute_join (h : IsName name) (dir : String) :
    isAbsolute (join dir name) = isAbsolute dir := by
  rcases join_cases h dir with ⟨rfl, hjoin⟩ | ⟨front, hjoin, hdir⟩
  · rw [hjoin, h.not_isAbsolute]
    rfl
  · rcases hdir with rfl | ⟨rfl, hne⟩
    · simp [hjoin, isAbsolute]
    · have hfront : dir.toList ≠ [] := by simpa using hne
      rw [hjoin, isAbsolute, isAbsolute, String.toList_append, String.toList_append,
        List.append_assoc, List.head?_append_of_ne_nil _ hfront]

theorem endsInSlash_join (h : IsName name) (dir : String) :
    endsInSlash (join dir name) = false := by
  rcases join_cases h dir with ⟨-, hjoin⟩ | ⟨front, hjoin, -⟩
  · rw [hjoin, h.not_endsInSlash]
  · have hname : name.toList ≠ [] := by simpa using h.ne_empty
    rw [hjoin, endsInSlash, String.toList_append, List.getLast?_append_of_ne_nil _ hname]
    exact h.not_endsInSlash

end Path

namespace FileTree

open FolderFlow.Path (Step)

variable {t t' : FileTree} {cwd start loc : Location} {dir name text : String} {steps : List Step}

/-- Whatever is there lies in a directory. -/
def Rooted (t : FileTree) : Prop :=
  ∀ name dir, (t.find? (name :: dir)).isSome = true → t.isDir dir = true

theorem startOf_join (h : Path.IsName name) (cwd : Location) (dir : String) :
    startOf cwd (Path.join dir name) = startOf cwd dir := by
  rw [startOf, startOf, Path.isAbsolute_join h]

theorem destination_join (h : Path.IsName name) (cwd : Location) (dir : String) :
    destination cwd (Path.join dir name) = name :: destination cwd dir := by
  rw [destination, destination, Path.steps_join h, startOf_join h, arrive]

/-- A text in a directory is read when the path leads to the directory and is one that the system
takes. -/
theorem readText_join_eq_ok_iff (h : Path.IsName name) :
    t.readText cwd (Path.join dir name) = .ok text ↔
      t.leadsToDir (startOf cwd dir) (Path.steps dir) = true ∧
      (Path.check (Path.join dir name) = .ok () ∧ Path.isLong Path.maxName name = false) ∧
      t.find? (name :: destination cwd dir) = some (.file text.toUTF8) := by
  rw [readText_eq_ok_iff, locate_eq_ok_iff, Path.endsInSlash_join h, Path.steps_join h,
    startOf_join h, destination_join h, follow_cons_eq_ok_iff, leadsToDir_iff]
  constructor
  · rintro ⟨⟨hcheck, ⟨loc, hfollow, hdir, htake⟩, -⟩, hfind⟩
    exact ⟨⟨loc, hfollow, hdir⟩, ⟨hcheck, (take_down_eq_ok_iff.mp htake).1⟩, hfind⟩
  · rintro ⟨⟨loc, hfollow, hdir⟩, ⟨hcheck, hlong⟩, hfind⟩
    have hloc : loc = destination cwd dir := eq_arrive_of_follow hfollow
    refine ⟨⟨hcheck, ⟨loc, hfollow, hdir, take_down_eq_ok_iff.mpr ⟨hlong, ?_, ?_⟩⟩, by simp⟩, hfind⟩
    · rw [hloc, hfind]
      rfl
    · rw [hloc]

/-- Steps that never climb can be made where they can be made in another tree, if they end in a
directory. -/
theorem Rooted.follow (h : t.Rooted) (hup : Step.up ∉ steps)
    (hfollow : t'.follow start steps = .ok loc) (hdir : t.isDir loc = true) :
    t.follow start steps = .ok loc := by
  induction steps generalizing loc with
  | nil => exact hfollow
  | cons step steps ih =>
    obtain ⟨hstep, hsteps⟩ := not_or.mp (mt List.mem_cons.mpr hup)
    obtain ⟨outer, houter, -, htake⟩ := follow_cons_eq_ok_iff.mp hfollow
    cases step with
    | here =>
      obtain rfl := Except.ok.inj htake
      exact follow_cons_eq_ok_iff.mpr ⟨outer, ih hsteps houter hdir, hdir, rfl⟩
    | up => exact absurd rfl hstep
    | down name =>
      obtain ⟨hlong, -, rfl⟩ := take_down_eq_ok_iff.mp htake
      have hpresent : (t.find? (name :: outer)).isSome = true := by
        rw [isDir_iff.mp hdir]
        rfl
      have houterDir := h name outer hpresent
      exact follow_cons_eq_ok_iff.mpr ⟨outer, ih hsteps houter houterDir, houterDir,
        take_down_eq_ok_iff.mpr ⟨hlong, hpresent, rfl⟩⟩

end FileTree

end FolderFlow
