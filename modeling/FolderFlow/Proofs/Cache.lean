import FolderFlow.Docs.Cache
import FolderFlow.Host.Sandbox
import FolderFlow.Proofs.FileTree

/-!
# The cache in a sandbox

What the operations of the host and of a cache do to a world. Making directories and writing a text
touch at most the file that is written (`World.touches_createDirs`, `World.touches_writeText`), and
so does recording a hash (`DirCache.touches_record`). Once a hash is recorded it is held, and
recording it again changes nothing (`DirCache.held_of_record`, `DirCache.run_record_of_held`).
-/

namespace FolderFlow

open FileTree (destination)

variable {w w' : World} {path text : String} {loc : Location}

/-! ## Operations of the host -/

theorem run_bind {α β : Type} (x : Sandbox α) (f : α → Sandbox β) (w : World) :
    (x >>= f).run w = (f (x.run w).1).run (x.run w).2 := rfl

@[simp] theorem run_pure {α : Type} (a : α) (w : World) : (pure a : Sandbox α).run w = (a, w) := rfl

@[simp] theorem run_readText (path : String) (w : World) :
    (Host.readText path : Sandbox _).run w = (w.readText path, w) := rfl

@[simp] theorem run_writeText (path text : String) (w : World) :
    (Host.writeText path text : Sandbox _).run w = w.writeText path text := rfl

@[simp] theorem run_createDirs (path : String) (w : World) :
    (Host.createDirs path : Sandbox _).run w = w.createDirs path := rfl

@[simp] theorem run_log (level : Level) (message : String) (w : World) :
    (Host.log level message : Sandbox Unit).run w =
      ((), w.print (level.name ++ " " ++ Log.escape message ++ "\n")) := rfl

namespace World

/-- A run that stays in the working directory, takes nothing away and leaves what is there as it is
everywhere but at one location. -/
structure Touches (loc : Location) (w w' : World) : Prop where
  cwd : w'.cwd = w.cwd
  tree : FileTree.Touches loc w.tree w'.tree

theorem Touches.refl (loc : Location) (w : World) : Touches loc w w :=
  ⟨rfl, FileTree.Touches.refl loc w.tree⟩

theorem Touches.trans {w'' : World} (h : Touches loc w w') (h' : Touches loc w' w'') :
    Touches loc w w'' :=
  ⟨h'.cwd.trans h.cwd, h.tree.trans h'.tree⟩

theorem Touches.readText (h : Touches loc w w') (hne : destination w.cwd path ≠ loc)
    (hread : w.readText path = .ok text) : w'.readText path = .ok text := by
  rw [World.readText, h.cwd]
  exact h.tree.readText hne hread

theorem touches_print (loc : Location) (w : World) (text : String) :
    Touches loc w (w.print text) :=
  ⟨rfl, FileTree.Touches.refl loc w.tree⟩

theorem touches_createDirs (loc : Location) (w : World) (path : String) :
    Touches loc w (w.createDirs path).2 :=
  ⟨rfl, FileTree.keeps_createDirs.touches loc⟩

/-- A text that was written can be read, and no other file was touched. -/
theorem touches_writeText (h : w.writeText path text = (.ok (), w')) :
    Touches (destination w.cwd path) w w' ∧ w'.readText path = .ok text := by
  unfold writeText at h
  split at h
  · rename_i tree hwrite
    obtain ⟨-, rfl⟩ := Prod.mk.inj h
    exact ⟨⟨rfl, (FileTree.touches_of_writeBytes hwrite).1⟩,
      FileTree.readText_of_writeBytes hwrite⟩
  · exact absurd (Prod.mk.inj h).1 (by simp)

/-- A text that could not be written left everything as it was. -/
theorem eq_of_writeText {e : SystemError} (h : w.writeText path text = (.error e, w')) :
    w' = w := by
  unfold writeText at h
  split at h
  · exact absurd (Prod.mk.inj h).1 (by simp)
  · exact (Prod.mk.inj h).2.symm

end World

/-! ## Operations of a cache -/

namespace DirCache

open World (Touches)

variable {cache : DirCache} {key value hash : String} {result : Except SystemError Unit}
  {status : CacheStatus}

/-- What a cache holds under a key. -/
def held (cache : DirCache) (w : World) (key : String) : Option String :=
  (w.readText (cache.entryPath key)).toOption.map Text.trim

/-- Where the entry of a key is kept. -/
def entryLocation (cache : DirCache) (cwd : Location) (key : String) : Location :=
  destination cwd (cache.entryPath key)

@[simp] theorem run_get (cache : DirCache) (key : String) (w : World) :
    (cache.get key : Sandbox _).run w = (cache.held w key, w) := by
  simp only [get, run_bind, run_readText, held]
  cases w.readText (cache.entryPath key) <;> rfl

theorem touches_put (h : (cache.put key value : Sandbox _).run w = (result, w')) :
    Touches (cache.entryLocation w.cwd key) w w' ∧
      (result = .ok () → w'.readText (cache.entryPath key) = .ok value) := by
  simp only [put, run_bind, run_createDirs] at h
  have hdirs := World.touches_createDirs (cache.entryLocation w.cwd key) w cache.dir
  generalize w.createDirs cache.dir = made at h hdirs
  obtain ⟨outcome, between⟩ := made
  cases outcome with
  | error e =>
    obtain ⟨rfl, rfl⟩ := Prod.mk.inj h
    exact ⟨hdirs, by simp⟩
  | ok =>
    simp only [run_writeText] at h
    cases result with
    | error e =>
      obtain rfl := World.eq_of_writeText h
      exact ⟨hdirs, by simp⟩
    | ok =>
      obtain ⟨hwrite, hread⟩ := World.touches_writeText h
      rw [hdirs.cwd] at hwrite
      exact ⟨hdirs.trans hwrite, fun _ => hread⟩

/-- Recording a hash that is held changes nothing. -/
theorem run_record_of_held (h : cache.held w hashKey = some hash) :
    (cache.record hash : Sandbox _).run w = (.unchanged, w) := by
  simp only [record, run_bind, run_get, h, BEq.rfl, if_true, run_pure]

theorem touches_record (h : (cache.record hash : Sandbox _).run w = (status, w')) :
    Touches (cache.entryLocation w.cwd hashKey) w w' ∧
      (status ≠ .writeFailed → Text.trim hash = hash → cache.held w' hashKey = some hash) := by
  simp only [record, run_bind, run_get] at h
  split at h
  · rename_i hheld
    obtain ⟨rfl, rfl⟩ := Prod.mk.inj h
    exact ⟨Touches.refl _ w, fun _ _ => by simpa using hheld⟩
  · simp only [run_bind] at h
    generalize hput : (cache.put hashKey hash : Sandbox _).run w = outcome at h
    obtain ⟨result, between⟩ := outcome
    obtain ⟨htouches, hread⟩ := touches_put hput
    cases result with
    | error e =>
      simp only [run_bind, run_log, run_pure] at h
      obtain ⟨rfl, rfl⟩ := Prod.mk.inj h
      exact ⟨htouches.trans (World.touches_print _ _ _), by simp⟩
    | ok =>
      obtain ⟨rfl, rfl⟩ := Prod.mk.inj h
      refine ⟨htouches, fun _ htrim => ?_⟩
      rw [held, hread rfl]
      simp [htrim, Except.toOption]

end DirCache

end FolderFlow
