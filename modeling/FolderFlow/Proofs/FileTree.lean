import FolderFlow.Host.FileTree
import FolderFlow.Proofs.Except

/-!
# File trees that grow

Making directories and writing files takes nothing away: what could be reached can still be reached,
at the same place (`Grows.locate`). The place itself depends on the working directory and the path
alone (`eq_destination_of_locate`), so whether two paths lead to one file does not depend on the
tree.

A file that was written reads as it was written (`readText_of_writeBytes`), and every other file
reads as before (`Touches.readText`).
-/

namespace FolderFlow

/-- Bytes that can be read as a text are those that the text is written with. -/
theorem fromUTF8?_eq_some_iff {bytes : ByteArray} {text : String} :
    String.fromUTF8? bytes = some text ↔ bytes = text.toUTF8 := by
  rw [String.fromUTF8?, String.toUTF8_eq_toByteArray]
  constructor
  · intro h
    split at h
    · exact congrArg String.toByteArray (Option.some.inj h)
    · exact absurd h (by simp)
  · rintro rfl
    rw [dif_pos text.isValidUTF8]
    rfl

namespace FileTree

open FolderFlow.Path (Step)

variable {t t' : FileTree} {cwd start loc loc' : Location} {path : String} {steps : List Step}

/-! ## Where a path leads -/

/-- Where steps lead when all of them can be made. -/
def arrive (start : Location) : List Step → Location
  | [] => start
  | .here :: steps => arrive start steps
  | .up :: steps => (arrive start steps).drop 1
  | .down name :: steps => name :: arrive start steps

/-- Where a path leads. -/
def destination (cwd : Location) (path : String) : Location :=
  arrive (startOf cwd path) (Path.steps path)

theorem isDir_iff : t.isDir loc = true ↔ t.find? loc = some .dir := by
  unfold isDir
  cases t.find? loc with
  | none => simp
  | some entry => cases entry <;> simp [Entry.isDir]

theorem enter_eq_ok_iff : t.enter loc = .ok loc' ↔ t.isDir loc = true ∧ loc' = loc := by
  unfold enter
  split
  · rename_i hdir
    simp only [hdir, Except.ok.injEq, true_and, eq_comm]
  · rename_i hdir
    simp [hdir]

theorem take_down_eq_ok_iff {name : String} : t.take loc (.down name) = .ok loc' ↔
    Path.isLong Path.maxName name = false ∧ (t.find? (name :: loc)).isSome = true ∧
      loc' = name :: loc := by
  simp only [take]
  split
  · rename_i hlong
    simp [hlong]
  · rename_i hlong
    split
    · rename_i hpresent
      simp only [Bool.eq_false_iff.mpr hlong, hpresent, Except.ok.injEq, true_and, eq_comm]
    · rename_i hpresent
      simp [hpresent]

theorem follow_cons_eq_ok_iff {step : Step} : t.follow start (step :: steps) = .ok loc' ↔
    ∃ loc, t.follow start steps = .ok loc ∧ t.isDir loc = true ∧ t.take loc step = .ok loc' := by
  simp only [follow, bind_eq_ok_iff, enter_eq_ok_iff]
  constructor
  · rintro ⟨loc, hfollow, _, ⟨hdir, rfl⟩, htake⟩
    exact ⟨_, hfollow, hdir, htake⟩
  · rintro ⟨loc, hfollow, hdir, htake⟩
    exact ⟨loc, hfollow, loc, ⟨hdir, rfl⟩, htake⟩

theorem eq_arrive_of_follow (h : t.follow start steps = .ok loc) : loc = arrive start steps := by
  induction steps generalizing loc with
  | nil => exact (Except.ok.inj h).symm
  | cons step steps ih =>
    obtain ⟨loc', hfollow, -, htake⟩ := follow_cons_eq_ok_iff.mp h
    obtain rfl := ih hfollow
    cases step with
    | here => exact (Except.ok.inj htake).symm
    | up => exact (Except.ok.inj htake).symm
    | down name => exact (take_down_eq_ok_iff.mp htake).2.2

theorem locate_eq_ok_iff : t.locate cwd path = .ok loc ↔
    Path.check path = .ok () ∧ t.follow (startOf cwd path) (Path.steps path) = .ok loc ∧
      (Path.endsInSlash path = true → t.isDir loc = true) := by
  simp only [locate, bind_eq_ok_iff]
  constructor
  · rintro ⟨⟨⟩, hcheck, loc', hfollow, h⟩
    split at h
    · obtain ⟨hdir, rfl⟩ := enter_eq_ok_iff.mp h
      exact ⟨hcheck, hfollow, fun _ => hdir⟩
    · rename_i hslash
      obtain rfl := Except.ok.inj h
      exact ⟨hcheck, hfollow, fun h => absurd h hslash⟩
  · rintro ⟨hcheck, hfollow, hdir⟩
    refine ⟨(), hcheck, loc, hfollow, ?_⟩
    split
    · rename_i hslash
      exact enter_eq_ok_iff.mpr ⟨hdir hslash, rfl⟩
    · rfl

theorem eq_destination_of_locate (h : t.locate cwd path = .ok loc) :
    loc = destination cwd path :=
  eq_arrive_of_follow (locate_eq_ok_iff.mp h).2.1

/-! ## Growth -/

/-- Whatever is there stays there, and directories stay directories. -/
structure Grows (t t' : FileTree) : Prop where
  present : ∀ loc, (t.find? loc).isSome = true → (t'.find? loc).isSome = true
  isDir : ∀ loc, t.isDir loc = true → t'.isDir loc = true

namespace Grows

theorem trans {t'' : FileTree} (h : Grows t t') (h' : Grows t' t'') : Grows t t'' :=
  ⟨fun loc hloc => h'.present loc (h.present loc hloc),
    fun loc hloc => h'.isDir loc (h.isDir loc hloc)⟩

theorem follow (h : Grows t t') (hfollow : t.follow start steps = .ok loc) :
    t'.follow start steps = .ok loc := by
  induction steps generalizing loc with
  | nil => exact hfollow
  | cons step steps ih =>
    obtain ⟨loc', hfollow, hdir, htake⟩ := follow_cons_eq_ok_iff.mp hfollow
    refine follow_cons_eq_ok_iff.mpr ⟨loc', ih hfollow, h.isDir loc' hdir, ?_⟩
    cases step with
    | here => exact htake
    | up => exact htake
    | down name =>
      obtain ⟨hname, hpresent, rfl⟩ := take_down_eq_ok_iff.mp htake
      exact take_down_eq_ok_iff.mpr ⟨hname, h.present _ hpresent, rfl⟩

/-- What could be reached can still be reached, at the same place. -/
theorem locate (h : Grows t t') (hlocate : t.locate cwd path = .ok loc) :
    t'.locate cwd path = .ok loc := by
  obtain ⟨hcheck, hfollow, hdir⟩ := locate_eq_ok_iff.mp hlocate
  exact locate_eq_ok_iff.mpr ⟨hcheck, h.follow hfollow, fun hslash => h.isDir loc (hdir hslash)⟩

end Grows

/-- Nothing is taken away, and what is there stays as it is everywhere but at one location. -/
structure Touches (loc : Location) (t t' : FileTree) : Prop where
  grows : Grows t t'
  kept : ∀ other entry, other ≠ loc → t.find? other = some entry → t'.find? other = some entry

theorem Touches.refl (loc : Location) (t : FileTree) : Touches loc t t :=
  ⟨⟨fun _ h => h, fun _ h => h⟩, fun _ _ _ h => h⟩

theorem Touches.trans {t'' : FileTree} (h : Touches loc t t') (h' : Touches loc t' t'') :
    Touches loc t t'' :=
  ⟨h.grows.trans h'.grows,
    fun other entry hne hother => h'.kept other entry hne (h.kept other entry hne hother)⟩

/-! ## Making directories -/

/-- Every entry stays as it is. -/
def Keeps (t t' : FileTree) : Prop :=
  ∀ loc entry, t.find? loc = some entry → t'.find? loc = some entry

theorem Keeps.refl (t : FileTree) : Keeps t t :=
  fun _ _ h => h

theorem Keeps.trans {t'' : FileTree} (h : Keeps t t') (h' : Keeps t' t'') : Keeps t t'' :=
  fun loc entry hloc => h' loc entry (h loc entry hloc)

theorem Keeps.grows (h : Keeps t t') : Grows t t' := by
  refine ⟨fun loc hloc => ?_, fun loc hloc => isDir_iff.mpr (h loc .dir (isDir_iff.mp hloc))⟩
  obtain ⟨entry, hentry⟩ := Option.isSome_iff_exists.mp hloc
  rw [h loc entry hentry]
  rfl

theorem Keeps.touches (h : Keeps t t') (loc : Location) : Touches loc t t' :=
  ⟨h.grows, fun other entry _ hother => h other entry hother⟩

theorem keeps_put (entry : Entry) (h : t.find? loc = none) : Keeps t (t.put loc entry) := by
  intro other found hfound
  have hne : other ≠ loc := by
    rintro rfl
    exact absurd (h.symm.trans hfound) (by simp)
  rw [find?_put_of_ne t entry hne, hfound]

theorem keeps_makeDir (h : t.makeDir start steps = .ok t') : Keeps t t' := by
  unfold makeDir at h
  split at h
  · obtain ⟨_, -, dir, -, h⟩ := by simpa only [bind_eq_ok_iff] using h
    split at h
    · exact absurd h (by simp)
    · split at h
      · exact absurd h (by simp)
      · rename_i hnone
        obtain rfl := Except.ok.inj h
        exact keeps_put .dir (by simpa using hnone)
  · exact absurd h (by simp)
  · obtain ⟨_, -, h⟩ := bind_eq_ok_iff.mp h
    exact absurd h (by simp [bind_eq_ok_iff])

theorem keeps_makeLast : Keeps t (t.makeLast start steps).1 := by
  unfold makeLast
  split
  · rename_i hmade
    exact keeps_makeDir hmade
  · split
    · exact Keeps.refl t
    · exact Keeps.refl t

theorem keeps_makeDirs : Keeps t (t.makeDirs start steps).1 := by
  fun_induction makeDirs t start steps with
  | case1 => exact Keeps.refl _
  | case2 step steps hmissing t' hbelow ih =>
    rw [hbelow] at ih
    exact ih.trans keeps_makeLast
  | case3 step steps hmissing t' e hbelow ih =>
    rw [hbelow] at ih
    exact ih
  | case4 => exact keeps_makeLast

theorem keeps_createDirs : Keeps t (t.createDirs cwd path).1 := by
  unfold createDirs
  split
  · exact Keeps.refl t
  · split
    · exact keeps_makeDirs
    · exact Keeps.refl t

/-! ## Writing files -/

/-- A file is written where its path leads, in place of a file or of nothing. -/
theorem target_eq_ok_iff : t.target cwd path = .ok loc ↔
    ∃ name steps dir, Path.check path = .ok () ∧ Path.steps path = .down name :: steps ∧
      t.follow (startOf cwd path) steps = .ok dir ∧ t.isDir dir = true ∧
      Path.endsInSlash path = false ∧ Path.isLong Path.maxName name = false ∧
      t.isDir (name :: dir) = false ∧ loc = name :: dir := by
  simp only [target, bind_eq_ok_iff]
  constructor
  · rintro ⟨⟨⟩, hcheck, h⟩
    split at h
    · rename_i name steps hsteps
      obtain ⟨dir, hfollow, _, henter, h⟩ := by simpa only [bind_eq_ok_iff] using h
      obtain ⟨hdir, rfl⟩ := enter_eq_ok_iff.mp henter
      split at h
      · exact absurd h (by simp)
      · split at h
        · exact absurd h (by simp)
        · split at h
          · exact absurd h (by simp)
          · rename_i hslash hlong hfile
            exact ⟨name, steps, _, hcheck, hsteps, hfollow, hdir, by simpa using hslash,
              by simpa using hlong, by simpa using hfile, (Except.ok.inj h).symm⟩
    · obtain ⟨_, -, h⟩ := bind_eq_ok_iff.mp h
      exact absurd h (by simp)
  · rintro ⟨name, steps, dir, hcheck, hsteps, hfollow, hdir, hslash, hlong, hfile, rfl⟩
    refine ⟨(), hcheck, ?_⟩
    simp only [hsteps, bind_eq_ok_iff]
    refine ⟨dir, hfollow, dir, enter_eq_ok_iff.mpr ⟨hdir, rfl⟩, ?_⟩
    simp [hslash, hlong, hfile, pure, Except.pure]

theorem eq_destination_of_target (h : t.target cwd path = .ok loc) :
    loc = destination cwd path := by
  obtain ⟨name, steps, dir, -, hsteps, hfollow, -, -, -, -, rfl⟩ := target_eq_ok_iff.mp h
  rw [destination, hsteps, arrive, eq_arrive_of_follow hfollow]

/-- What stands where a file can be written is found there. -/
theorem locate_of_target (h : t.target cwd path = .ok loc) (hfind : (t.find? loc).isSome = true) :
    t.locate cwd path = .ok loc := by
  obtain ⟨name, steps, dir, hcheck, hsteps, hfollow, hdir, hslash, hlong, -, rfl⟩ :=
    target_eq_ok_iff.mp h
  refine locate_eq_ok_iff.mpr ⟨hcheck, ?_, fun hends => absurd hends (by simp [hslash])⟩
  rw [hsteps, follow_cons_eq_ok_iff]
  exact ⟨dir, hfollow, hdir, take_down_eq_ok_iff.mpr ⟨hlong, hfind, rfl⟩⟩

theorem grows_put {bytes : ByteArray} (hne : loc ≠ []) (hfile : t.isDir loc = false) :
    Grows t (t.put loc (.file bytes)) := by
  refine ⟨fun other hother => ?_, fun other hother => ?_⟩
  · by_cases hloc : other = loc
    · rw [hloc, find?_put_self t _ hne]
      rfl
    · rwa [find?_put_of_ne t _ hloc]
  · have hloc : other ≠ loc := by
      rintro rfl
      exact absurd (hfile.symm.trans hother) (by simp)
    rw [isDir_iff] at hother ⊢
    rwa [find?_put_of_ne t _ hloc]

theorem touches_of_writeBytes {bytes : ByteArray} (h : t.writeBytes cwd path bytes = .ok t') :
    Touches (destination cwd path) t t' ∧ t'.locate cwd path = .ok (destination cwd path) ∧
      t'.find? (destination cwd path) = some (.file bytes) := by
  obtain ⟨loc, htarget, h⟩ := bind_eq_ok_iff.mp h
  obtain rfl := Except.ok.inj h
  obtain rfl := eq_destination_of_target htarget
  obtain ⟨name, steps, dir, hcheck, hsteps, hfollow, hdir, hslash, hlong, hfile, hloc⟩ :=
    target_eq_ok_iff.mp htarget
  have hne : destination cwd path ≠ [] := by simp [hloc]
  have hgrows : Grows t (t.put (destination cwd path) (.file bytes)) :=
    grows_put hne (by rwa [hloc])
  have hkept : ∀ other entry, other ≠ destination cwd path → t.find? other = some entry →
      (t.put (destination cwd path) (.file bytes)).find? other = some entry := by
    intro other entry hother hentry
    rwa [find?_put_of_ne t _ hother]
  refine ⟨⟨hgrows, hkept⟩, ?_, find?_put_self t _ hne⟩
  refine locate_eq_ok_iff.mpr ⟨hcheck, ?_, by simp [hslash]⟩
  rw [hsteps]
  refine follow_cons_eq_ok_iff.mpr ⟨dir, hgrows.follow hfollow, hgrows.isDir dir hdir, ?_⟩
  refine take_down_eq_ok_iff.mpr ⟨hlong, ?_, hloc⟩
  rw [← hloc, find?_put_self t _ hne]
  rfl

/-! ## Reading texts -/

theorem readText_eq_ok_iff {text : String} : t.readText cwd path = .ok text ↔
    t.locate cwd path = .ok (destination cwd path) ∧
      t.find? (destination cwd path) = some (.file text.toUTF8) := by
  simp only [readText, readBytes, bind_eq_ok_iff]
  constructor
  · rintro ⟨bytes, ⟨loc, hlocate, hfind⟩, htext⟩
    obtain rfl := eq_destination_of_locate hlocate
    refine ⟨hlocate, ?_⟩
    split at hfind
    · rename_i stored hstored
      obtain rfl := Except.ok.inj hfind
      split at htext
      · rename_i read hread
        obtain rfl := Except.ok.inj htext
        rw [hstored, fromUTF8?_eq_some_iff.mp hread]
      · exact absurd htext (by simp)
    · exact absurd hfind (by simp)
    · exact absurd hfind (by simp)
  · rintro ⟨hlocate, hfind⟩
    refine ⟨text.toUTF8, ⟨_, hlocate, ?_⟩, ?_⟩
    · rw [hfind]
      rfl
    · rw [fromUTF8?_eq_some_iff.mpr rfl]
      rfl

/-- A file that was written reads as it was written. -/
theorem readText_of_writeBytes {text : String}
    (h : t.writeBytes cwd path text.toUTF8 = .ok t') : t'.readText cwd path = .ok text :=
  readText_eq_ok_iff.mpr (touches_of_writeBytes h).2

/-- A file at another location reads as before. -/
theorem Touches.readText {text : String} (h : Touches loc t t')
    (hne : destination cwd path ≠ loc) (hread : t.readText cwd path = .ok text) :
    t'.readText cwd path = .ok text := by
  obtain ⟨hlocate, hfind⟩ := readText_eq_ok_iff.mp hread
  exact readText_eq_ok_iff.mpr ⟨h.grows.locate hlocate, h.kept _ _ hne hfind⟩

end FileTree

end FolderFlow
