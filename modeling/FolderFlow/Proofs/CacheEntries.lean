import FolderFlow.Proofs.Cache
import FolderFlow.Proofs.Paths
import Mathlib.Data.List.Forall2

/-!
# The entries of a cache

What a cache holds after a key has been put. The entry of a key is a file in the directory of the
cache itself, whatever the key holds (`DirCache.entryLocation_eq`). `DirCache.put_stores` says what
comes of a put that succeeds: the key gives the value, nothing changes but the file of the key and
directories that were missing on the way to the cache, and another key gives what it gave before
exactly when it has a file of its own and its entry could be reached all along.

Two keys have one file exactly when they differ in characters that a name does not show
(`DirCache.fileName_eq_iff`), so keys made of the characters of names have files of their own
(`DirCache.fileName_eq_self_iff`).
-/

namespace FolderFlow

open FileTree (destination startOf Made ChangesWithin)

namespace DirCache

open FolderFlow.Path (Step)

variable {cache : DirCache} {w w' : World} {cwd : Location} {key other value text : String}

/-! ## The file of a key -/

theorem isNameChar_of_mem_fileName {c : Char} (h : c ∈ (fileName key).toList) :
    isNameChar c = true := by
  rw [fileName, String.toList_ofList] at h
  obtain ⟨c', -, rfl⟩ := List.mem_map.mp h
  split
  · assumption
  · decide

/-- A key is the name of its file exactly when it is made of the characters of names. -/
theorem fileName_eq_self_iff : fileName key = key ↔ ∀ c ∈ key.toList, isNameChar c = true := by
  constructor
  · intro h c hc
    rw [← h] at hc
    exact isNameChar_of_mem_fileName hc
  · intro h
    rw [fileName, List.map_congr_left fun c hc => if_pos (h c hc), List.map_id',
      String.ofList_toList]

/-- A character that cannot be told from others in the name of a file. -/
def Blurred (c : Char) : Prop :=
  c = '_' ∨ isNameChar c = false

/-- Keys have one file exactly when they differ in blurred characters alone. -/
theorem fileName_eq_iff : fileName other = fileName key ↔
    List.Forall₂ (fun c d => c = d ∨ (Blurred c ∧ Blurred d)) other.toList key.toList := by
  have hchar (c d : Char) : (if isNameChar c then c else '_') = (if isNameChar d then d else '_') ↔
      c = d ∨ (Blurred c ∧ Blurred d) := by
    unfold Blurred
    grind
  rw [fileName, fileName, String.ofList_inj, ← List.forall₂_eq_eq_eq, List.forall₂_map_left_iff,
    List.forall₂_map_right_iff]
  simp only [hchar]

theorem isName_fileName (h : key ≠ "") : Path.IsName (fileName key) := by
  refine ⟨fun hslash => absurd (isNameChar_of_mem_fileName hslash) (by decide), ?_⟩
  have hdot : '.' ∉ (fileName key).toList :=
    fun hdot => absurd (isNameChar_of_mem_fileName hdot) (by decide)
  unfold Step.ofText?
  split
  · rename_i hempty
    have hkey : key.toList = [] := by simpa [fileName] using congrArg String.toList hempty
    exact absurd (String.toList_eq_nil_iff.mp hkey) h
  · rename_i hname
    exact absurd (by simp [hname]) hdot
  · rename_i hname
    exact absurd (by simp [hname]) hdot
  · rfl

/-- The file of a key lies in the directory of the cache. -/
theorem entryLocation_eq (h : key ≠ "") (cache : DirCache) (cwd : Location) :
    cache.entryLocation cwd key = fileName key :: destination cwd cache.dir :=
  FileTree.destination_join (isName_fileName h) cwd cache.dir

/-- The path of the empty key is that of the directory, with a slash at its end. -/
theorem entryPath_empty (cache : DirCache) :
    cache.entryPath "" = "" ∨ Path.endsInSlash (cache.entryPath "") = true := by
  have hname : fileName "" = "" := by decide
  have habsolute : Path.isAbsolute "" = false := by decide
  rw [entryPath, hname, Path.join, habsolute, Bool.false_or]
  split
  · exact Or.inl rfl
  · split
    · rename_i hslash
      exact Or.inr (by simpa [Path.endsInSlash] using hslash)
    · exact Or.inr (by simp [Path.endsInSlash])

/-! ## What a cache holds -/

/-- The path of the cache leads to a directory. -/
def Reached (cache : DirCache) (w : World) : Prop :=
  w.tree.leadsToDir (startOf w.cwd cache.dir) (Path.steps cache.dir) = true

/-- A text stands in the place of an entry, whose path is one that the system takes. -/
structure Stands (cache : DirCache) (w : World) (key text : String) : Prop where
  named : key ≠ ""
  fits : Path.check (cache.entryPath key) = .ok () ∧
    Path.isLong Path.maxName (fileName key) = false
  file : w.tree.find? (fileName key :: destination w.cwd cache.dir) = some (.file text.toUTF8)

/-- An entry is there and yet cannot be read, since the path of the cache leads nowhere. -/
def Hides (cache : DirCache) (w : World) (key : String) : Prop :=
  ¬ cache.Reached w ∧ ∃ text, cache.Stands w key text

theorem readText_entryPath_eq_ok_iff : w.readText (cache.entryPath key) = .ok text ↔
    cache.Reached w ∧ cache.Stands w key text := by
  by_cases hkey : key = ""
  · subst hkey
    refine ⟨fun hread => ?_, fun ⟨_, hstands⟩ => absurd rfl hstands.named⟩
    obtain ⟨hlocate, hfind⟩ := FileTree.readText_eq_ok_iff.mp hread
    obtain ⟨hcheck, -, hdir⟩ := FileTree.locate_eq_ok_iff.mp hlocate
    rcases cache.entryPath_empty with hempty | hslash
    · rw [hempty] at hcheck
      exact absurd hcheck (by decide)
    · rw [FileTree.isDir_iff.mp (hdir hslash)] at hfind
      exact absurd hfind (by simp)
  · refine (FileTree.readText_join_eq_ok_iff (isName_fileName hkey)).trans ?_
    exact and_congr_right fun _ => ⟨fun ⟨hfits, hfile⟩ => ⟨hkey, hfits, hfile⟩,
      fun hstands => ⟨hstands.fits, hstands.file⟩⟩

theorem held_eq_some_iff : cache.held w key = some value ↔
    cache.Reached w ∧ ∃ text, cache.Stands w key text ∧ Text.trim text = value := by
  rw [held, Option.map_eq_some_iff]
  constructor
  · rintro ⟨text, htext, hvalue⟩
    cases hread : w.readText (cache.entryPath key) with
    | error e => simp [hread, Except.toOption] at htext
    | ok read =>
      obtain rfl : read = text := by simpa [hread, Except.toOption] using htext
      obtain ⟨hreached, hstands⟩ := readText_entryPath_eq_ok_iff.mp hread
      exact ⟨hreached, read, hstands, hvalue⟩
  · rintro ⟨hreached, text, hstands, hvalue⟩
    refine ⟨text, ?_, hvalue⟩
    rw [readText_entryPath_eq_ok_iff.mpr ⟨hreached, hstands⟩]
    rfl

theorem not_hides_of_held (h : cache.held w key = some value) : ¬ cache.Hides w key := by
  obtain ⟨hreached, -⟩ := held_eq_some_iff.mp h
  exact fun hhides => hhides.1 hreached

/-! ## Putting a key -/

theorem ne_empty_of_writeBytes {t t' : FileTree} {bytes : ByteArray}
    (h : t.writeBytes cwd (cache.entryPath key) bytes = .ok t') : key ≠ "" := by
  rintro rfl
  obtain ⟨loc, htarget, -⟩ := bind_eq_ok_iff.mp h
  obtain ⟨_, _, _, hcheck, -, -, -, hslash, -⟩ := FileTree.target_eq_ok_iff.mp htarget
  rcases cache.entryPath_empty with hempty | hends
  · rw [hempty] at hcheck
    exact absurd hcheck (by decide)
  · exact absurd (hslash.symm.trans hends) (by simp)

/-- What a put that succeeds makes of the files: directories where there was nothing on the way to
the cache, and the file of the key in it. -/
structure Puts (cache : DirCache) (key value : String) (w w' : World) (made : FileTree) : Prop where
  named : key ≠ ""
  dirs : ChangesWithin (Made (startOf w.cwd cache.dir) (Path.steps cache.dir) w.tree made)
    w.tree made
  file : made.writeBytes w.cwd (cache.entryPath key) value.toUTF8 = .ok w'.tree
  rest : w' = { w with tree := w'.tree }

theorem puts_of_put (h : (cache.put key value : Sandbox _).run w = (.ok (), w')) :
    ∃ made, cache.Puts key value w w' made := by
  simp only [put, run_bind, run_createDirs, World.createDirs] at h
  have hdirs : ChangesWithin _ w.tree (w.tree.createDirs w.cwd cache.dir).1 :=
    FileTree.made_of_createDirs
  generalize w.tree.createDirs w.cwd cache.dir = outcome at h hdirs
  obtain ⟨made, result⟩ := outcome
  cases result with
  | error e => exact absurd (Prod.mk.inj h).1 (by simp)
  | ok =>
    simp only [run_writeText, World.writeText] at h
    split at h
    · rename_i tree hwrite
      obtain ⟨-, rfl⟩ := Prod.mk.inj h
      exact ⟨made, ne_empty_of_writeBytes hwrite, hdirs, hwrite, rfl⟩
    · exact absurd (Prod.mk.inj h).1 (by simp)

namespace Puts

variable {made : FileTree}

theorem cwd_eq (h : cache.Puts key value w w' made) : w'.cwd = w.cwd := by
  rw [h.rest]

theorem reached_stands (h : cache.Puts key value w w' made) :
    cache.Reached w' ∧ cache.Stands w' key value := by
  refine readText_entryPath_eq_ok_iff.mp ?_
  rw [World.readText, h.cwd_eq]
  exact FileTree.readText_of_writeBytes h.file

/-- What has changed is the file of the key or a directory that has been made. -/
theorem changes (h : cache.Puts key value w w' made) :
    ChangesWithin (fun loc => loc = fileName key :: destination w.cwd cache.dir ∨
      Made (startOf w.cwd cache.dir) (Path.steps cache.dir) w.tree w'.tree loc) w.tree w'.tree := by
  have hplace : destination w.cwd (cache.entryPath key) =
      fileName key :: destination w.cwd cache.dir := entryLocation_eq h.named cache w.cwd
  intro loc hne
  by_cases hfile : w'.tree.find? loc = made.find? loc
  · obtain ⟨hway, hmissing, hmade⟩ := h.dirs loc (hfile ▸ hne)
    exact Or.inr ⟨hway, hmissing, hfile.trans hmade⟩
  · exact Or.inl (hplace ▸ FileTree.changesWithin_writeBytes h.file loc hfile)

/-- The file of another name stays as it is, and none appears. -/
theorem stands_iff (h : cache.Puts key value w w' made) (hne : fileName other ≠ fileName key) :
    cache.Stands w' other text ↔ cache.Stands w other text := by
  have hfile : w'.tree.find? (fileName other :: destination w.cwd cache.dir) =
      some (.file text.toUTF8) ↔
      w.tree.find? (fileName other :: destination w.cwd cache.dir) = some (.file text.toUTF8) := by
    by_cases hsame : w'.tree.find? (fileName other :: destination w.cwd cache.dir) =
        w.tree.find? (fileName other :: destination w.cwd cache.dir)
    · rw [hsame]
    · rcases h.changes _ hsame with hloc | hmade
      · exact absurd (List.cons.inj hloc).1 hne
      · simp [hmade.missing, hmade.made]
  constructor
  · rintro ⟨hnamed, hfits, hstands⟩
    rw [h.cwd_eq] at hstands
    exact ⟨hnamed, hfits, hfile.mp hstands⟩
  · rintro ⟨hnamed, hfits, hstands⟩
    rw [← h.cwd_eq] at hfile hstands
    exact ⟨hnamed, hfits, hfile.mpr hstands⟩

/-- A directory that no step climbs out of on the way was reached where an entry stands in it. -/
theorem reached_of_stands (h : cache.Puts key value w w' made) (hrooted : w.tree.Rooted)
    (hup : Step.up ∉ Path.steps cache.dir) (hstands : cache.Stands w other text) :
    cache.Reached w := by
  obtain ⟨loc, hfollow, -⟩ := FileTree.leadsToDir_iff.mp h.reached_stands.1
  rw [h.cwd_eq] at hfollow
  have hloc : loc = destination w.cwd cache.dir := FileTree.eq_arrive_of_follow hfollow
  have hdir : w.tree.isDir loc = true := by
    refine hrooted (fileName other) loc ?_
    rw [hloc, hstands.file]
    rfl
  exact FileTree.leadsToDir_iff.mpr ⟨loc, hrooted.follow hup hfollow hdir, hdir⟩

/-- Where the file is another, what was held before is held unless the entry was hidden. -/
theorem held_other_iff (h : cache.Puts key value w w' made)
    (hne : fileName other ≠ fileName key) :
    cache.held w' other = cache.held w other ↔ ¬ cache.Hides w other := by
  constructor
  · rintro hheld ⟨hreached, text, hstands⟩
    have hafter : cache.held w' other = some (Text.trim text) :=
      held_eq_some_iff.mpr ⟨h.reached_stands.1, text, (h.stands_iff hne).mpr hstands, rfl⟩
    exact hreached (held_eq_some_iff.mp (hheld.symm.trans hafter)).1
  · intro hshown
    refine Option.ext fun given => ?_
    simp only [held_eq_some_iff, h.stands_iff hne, h.reached_stands.1, true_and]
    constructor
    · rintro ⟨text, hstands, hgiven⟩
      have hreached : cache.Reached w := by
        by_contra hreached
        exact hshown ⟨hreached, text, hstands⟩
      exact ⟨hreached, text, hstands, hgiven⟩
    · rintro ⟨-, hstands⟩
      exact hstands

end Puts

/-- What comes of putting a value under a key. -/
structure Stores (cache : DirCache) (key value : String) (w w' : World) : Prop where
  given : (cache.get key : Sandbox _).run w' = (some (Text.trim value), w')
  others : ∀ other,
    ((cache.get other : Sandbox _).run w').1 = ((cache.get other : Sandbox _).run w).1 ↔
      (fileName other = fileName key →
        ((cache.get other : Sandbox _).run w).1 = some (Text.trim value)) ∧
      ¬ cache.Hides w other
  shown : w.tree.Rooted → Step.up ∉ Path.steps cache.dir → ∀ other, ¬ cache.Hides w other
  rest : w' = { w with tree := w'.tree }
  changes : ChangesWithin (fun loc => loc = fileName key :: destination w.cwd cache.dir ∨
    Made (startOf w.cwd cache.dir) (Path.steps cache.dir) w.tree w'.tree loc) w.tree w'.tree

/-- **Putting a key.** The key gives the value from then on, and no file is made or changed but its
own, in the directory of the cache. Another key gives what it gave before exactly when its file is
another, or held that value already, and its entry was not hidden. The files are any tree of files
and directories; with links among them, different files might be one. -/
theorem put_stores (h : (cache.put key value : Sandbox _).run w = (.ok (), w')) :
    cache.Stores key value w w' := by
  obtain ⟨made, hputs⟩ := puts_of_put h
  obtain ⟨hreached, hstands⟩ := hputs.reached_stands
  have hkey : cache.held w' key = some (Text.trim value) :=
    held_eq_some_iff.mpr ⟨hreached, value, hstands, rfl⟩
  refine ⟨by rw [run_get, hkey], fun other => ?_, ?_, hputs.rest, hputs.changes⟩
  · simp only [run_get]
    by_cases hname : fileName other = fileName key
    · have hother : cache.held w' other = some (Text.trim value) := by
        rw [← hkey, held, held, entryPath, entryPath, hname]
      rw [hother]
      constructor
      · intro hbefore
        exact ⟨fun _ => hbefore.symm, not_hides_of_held hbefore.symm⟩
      · rintro ⟨hbefore, -⟩
        exact (hbefore hname).symm
    · refine (hputs.held_other_iff hname).trans ?_
      constructor
      · intro hshown
        exact ⟨fun hsame => absurd hsame hname, hshown⟩
      · exact And.right
  · rintro hrooted hup other ⟨hnot, text, hother⟩
    exact hnot (hputs.reached_of_stands hrooted hup hother)

/-- An entry can be hidden: the way to `y` leads through `x`, which is missing. -/
example : (⟨"x/../y"⟩ : DirCache).Hides
    { tree := ⟨[(["y"], .dir), (["k", "y"], .file "old".toUTF8)]⟩
      cwd := []
      programs := fun _ => none
      output := "" } "k" :=
  ⟨by unfold Reached; decide +kernel, "old", by decide, by decide +kernel, rfl⟩

/-! ## Two keys with one file -/

/-- A world with a cache that holds the entry of `a_b`. -/
def oneEntry : World where
  tree := ⟨[(["cache"], .dir), (["a_b", "cache"], .file "one".toUTF8)]⟩
  cwd := []
  programs := fun _ => none
  output := ""

/-- A key that is new to the cache is stored. -/
theorem new_entry_stored :
    ((⟨"cache"⟩ : DirCache).put "new/key" "two\n" : Sandbox _).run oneEntry =
      (.ok (), (((⟨"cache"⟩ : DirCache).put "new/key" "two\n" : Sandbox _).run oneEntry).2) ∧
    (⟨"cache"⟩ : DirCache).Stores "new/key" "two\n" oneEntry
      (((⟨"cache"⟩ : DirCache).put "new/key" "two\n" : Sandbox _).run oneEntry).2 := by
  have hput : ((⟨"cache"⟩ : DirCache).put "new/key" "two\n" : Sandbox _).run oneEntry =
      (.ok (), (((⟨"cache"⟩ : DirCache).put "new/key" "two\n" : Sandbox _).run oneEntry).2) :=
    Prod.ext (by decide +kernel) rfl
  exact ⟨hput, put_stores hput⟩

/-- The keys `a/b` and `a_b` have one file, so that putting the one replaces the other. -/
theorem other_key_replaced :
    "a_b" ≠ "a/b" ∧
    ∃ w', ((⟨"cache"⟩ : DirCache).put "a/b" "two" : Sandbox _).run oneEntry = (.ok (), w') ∧
      (((⟨"cache"⟩ : DirCache).get "a_b" : Sandbox _).run oneEntry).1 = some "one" ∧
      (((⟨"cache"⟩ : DirCache).get "a_b" : Sandbox _).run w').1 = some "two" := by
  refine ⟨by decide, _, Prod.ext ?_ rfl, ?_, ?_⟩
  · decide +kernel
  · decide +kernel
  · decide +kernel

end DirCache

end FolderFlow
