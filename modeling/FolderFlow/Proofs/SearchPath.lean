import FolderFlow.Host.Sandbox
import FolderFlow.Proofs.Except

/-!
# Programs found by name

A name leads to the program that has it in the first directory of the search path in which there is
one (`World.programFor_eq_ok_iff`). Where no directory has one, whatever the files are, the program
cannot be started (`World.Lacks`).
-/

namespace FolderFlow

/-- In the directory there is nothing of the name, or nothing that may be executed. -/
def PassedOver (found : Except SystemError (Option Program)) : Prop :=
  found = .ok none ∨ found = .error .notFound ∨ found = .error .notADirectory

namespace World

variable {w : World} {start : Location} {name dir : String} {dirs : List String}
  {program : Program} {found : String → Except SystemError (Option Program)}

/-! ## The first program -/

theorem firstProgram_cons_of_passedOver (h : PassedOver (found dir)) :
    firstProgram found (dir :: dirs) = .ok program ↔ firstProgram found dirs = .ok program := by
  rcases h with h | h | h
  · simp only [firstProgram, h]
    split
    · simp [*]
    · rfl
  · simp only [firstProgram, h]
  · simp only [firstProgram, h]

theorem eq_of_firstProgram_cons (hnot : ¬ PassedOver (found dir))
    (h : firstProgram found (dir :: dirs) = .ok program) : found dir = .ok (some program) := by
  unfold firstProgram at h
  split at h
  · rename_i hfound
    rw [hfound, Except.ok.inj h]
  · rename_i hfound
    exact absurd (Or.inl hfound) hnot
  · rename_i hfound
    exact absurd (Or.inr (Or.inl hfound)) hnot
  · rename_i hfound
    exact absurd (Or.inr (Or.inr hfound)) hnot
  · exact absurd h (by simp)

theorem firstProgram_eq_ok_iff :
    firstProgram found dirs = .ok program ↔ ∃ before dir after, dirs = before ++ dir :: after ∧
      (∀ earlier ∈ before, PassedOver (found earlier)) ∧ found dir = .ok (some program) := by
  induction dirs with
  | nil => simp [firstProgram]
  | cons dir dirs ih =>
    constructor
    · intro h
      by_cases hpassed : PassedOver (found dir)
      · rw [firstProgram_cons_of_passedOver hpassed, ih] at h
        obtain ⟨before, dir', after, rfl, hbefore, hfound⟩ := h
        exact ⟨dir :: before, dir', after, rfl, List.forall_mem_cons.mpr ⟨hpassed, hbefore⟩,
          hfound⟩
      · exact ⟨[], dir, dirs, rfl, by simp, eq_of_firstProgram_cons hpassed h⟩
    · rintro ⟨before, dir', after, hdirs, hbefore, hfound⟩
      cases before with
      | nil =>
        obtain ⟨rfl, rfl⟩ := List.cons.inj hdirs
        simp only [firstProgram, hfound]
      | cons earlier before =>
        obtain ⟨rfl, rfl⟩ := List.cons.inj hdirs
        obtain ⟨hpassed, hbefore⟩ := List.forall_mem_cons.mp hbefore
        rw [firstProgram_cons_of_passedOver hpassed, ih]
        exact ⟨before, dir', after, rfl, hbefore, hfound⟩

/-! ## Names -/

theorem programFor_of_name (hname : '/' ∉ name.toList) (hne : name ≠ "") :
    w.programFor start name = firstProgram (w.programIn start name) w.searchPath := by
  have hplain : name.toList.contains '/' = false := by simpa using hname
  have hfull : name.isEmpty = false := by simpa using hne
  simp only [programFor, hfull, hplain, Bool.false_eq_true, if_false]

/-- A name leads to the program in the first directory that has one; those before it are passed
over. -/
theorem programFor_eq_ok_iff (hname : '/' ∉ name.toList) (hne : name ≠ "") :
    w.programFor start name = .ok program ↔
      ∃ before dir after, w.searchPath = before ++ dir :: after ∧
        (∀ earlier ∈ before, PassedOver (w.programIn start name earlier)) ∧
        w.programIn start name dir = .ok (some program) := by
  rw [programFor_of_name hname hne, firstProgram_eq_ok_iff]

/-- The shell is found in the second directory, behind one that is missing. -/
example (shell : Program) :
    ({ tree := ⟨[(["bin"], .dir), (["sh", "bin"], .file .empty)]⟩
       cwd := []
       programs := fun loc => if loc = ["sh", "bin"] then some shell else none
       output := ""
       searchPath := ["/sbin", "/bin"] } : World).programFor [] "sh" = .ok shell := by
  rfl

theorem exists_programs_of_programIn (h : w.programIn start name dir = .ok (some program)) :
    ∃ loc, w.programs loc = some program := by
  rw [programIn] at h
  obtain ⟨_, -, hstep⟩ := bind_eq_ok_iff.mp h
  obtain ⟨loc, -, hloc⟩ := bind_eq_ok_iff.mp hstep
  exact ⟨loc, Except.ok.inj hloc⟩

/-- Whatever the files are and wherever it is to run, no program is found. -/
def Lacks (w : World) (program : String) : Prop :=
  ∀ tree start found, { w with tree }.programFor start program ≠ .ok found

theorem lacks_of_programIn (hname : '/' ∉ name.toList)
    (h : ∀ tree start, ∀ dir ∈ w.searchPath, ∀ found,
      { w with tree }.programIn start name dir ≠ .ok (some found)) : w.Lacks name := by
  intro tree start found hfound
  by_cases hne : name = ""
  · rw [hne] at hfound
    exact absurd hfound (by simp [programFor])
  · obtain ⟨before, dir, after, hdirs, -, hin⟩ := (programFor_eq_ok_iff hname hne).mp hfound
    have hdir : dir ∈ w.searchPath := by
      rw [show w.searchPath = before ++ dir :: after from hdirs]
      simp
    exact h tree start dir hdir found hin

/-! ## Launches -/

/-- Where a program is found does not depend on what has been printed. -/
theorem findProgram_withOutput (w : World) (tree : FileTree) (output : String)
    (command : Launch) : { w with tree, output }.findProgram command =
      { w with tree }.findProgram command :=
  rfl

theorem Lacks.findProgram_ne {command : Launch} (h : w.Lacks command.program) (tree : FileTree)
    (found : Program × Location) : { w with tree }.findProgram command ≠ .ok found := by
  intro hfound
  unfold findProgram at hfound
  split at hfound
  · obtain ⟨_, hzero, -⟩ := bind_eq_ok_iff.mp hfound
    simp at hzero
  · obtain ⟨dir, -, hdir⟩ := bind_eq_ok_iff.mp hfound
    obtain ⟨program, hprogram, -⟩ := bind_eq_ok_iff.mp hdir
    exact h tree dir program hprogram

end World

end FolderFlow
