import FolderFlow.Proofs.FileTree

/-!
# What an operation on a file tree changes

Writing a file changes the place of the file and no other (`changesWithin_writeBytes`). Making
directories puts directories where nothing was, at the end of the path or above it
(`made_of_createDirs`), and nothing at all once the directory is there (`createDirs_again`).

Which directories can be made and which files can be written depends on the shape of a tree alone,
so a file that is written anew stands in the way of nothing (`SameShape`).
-/

namespace FolderFlow.FileTree

open FolderFlow.Path (Step)

variable {t t' t'' : FileTree} {cwd start loc : Location} {path : String} {steps : List Step}

/-! ## Changes -/

/-- What differs lies at one of the places. -/
def ChangesWithin (place : Location → Prop) (t t' : FileTree) : Prop :=
  ∀ loc, t'.find? loc ≠ t.find? loc → place loc

namespace ChangesWithin

variable {place place' : Location → Prop}

theorem refl (place : Location → Prop) (t : FileTree) : ChangesWithin place t t :=
  fun _ hne => absurd rfl hne

theorem mono (h : ChangesWithin place t t') (hle : ∀ loc, place loc → place' loc) :
    ChangesWithin place' t t' :=
  fun loc hne => hle loc (h loc hne)

end ChangesWithin

theorem changesWithin_put (t : FileTree) (loc : Location) (entry : Entry) :
    ChangesWithin (· = loc) t (t.put loc entry) :=
  fun _ hne => Decidable.byContradiction fun hother => hne (find?_put_of_ne t entry hother)

theorem changesWithin_writeBytes {bytes : ByteArray} (h : t.writeBytes cwd path bytes = .ok t') :
    ChangesWithin (· = destination cwd path) t t' := by
  obtain ⟨loc, htarget, h⟩ := bind_eq_ok_iff.mp h
  obtain rfl := Except.ok.inj h
  obtain rfl := eq_destination_of_target htarget
  exact changesWithin_put t _ _

/-! ## What a path leads over -/

theorem readText_congr (hlocate : t'.locate cwd path = t.locate cwd path)
    (hfind : t'.find? (destination cwd path) = t.find? (destination cwd path)) :
    t'.readText cwd path = t.readText cwd path := by
  have hbytes : t'.readBytes cwd path = t.readBytes cwd path := by
    rw [readBytes, readBytes, hlocate]
    refine bind_congr_ok fun loc hloc => ?_
    rw [eq_destination_of_locate hloc, hfind]
  rw [readText, readText, hbytes]

/-- A place that steps lead over, from where they start to where they end. -/
def OnWay (start : Location) (steps : List Step) (loc : Location) : Prop :=
  ∃ way, way <:+ steps ∧ loc = arrive start way

/-- Trees that hold the same at every place that steps lead over. -/
def AgreeOn (start : Location) (steps : List Step) (t t' : FileTree) : Prop :=
  ∀ loc, OnWay start steps loc → t'.find? loc = t.find? loc

namespace AgreeOn

theorem of_cons {step : Step} (h : AgreeOn start (step :: steps) t t') :
    AgreeOn start steps t t' :=
  fun loc ⟨way, hway, hloc⟩ => h loc ⟨way, hway.trans (List.suffix_cons step steps), hloc⟩

theorem find?_eq (h : AgreeOn start steps t t') :
    t'.find? (arrive start steps) = t.find? (arrive start steps) :=
  h _ ⟨steps, List.suffix_refl steps, rfl⟩

theorem enter_eq (h : AgreeOn start steps t t') :
    t'.enter (arrive start steps) = t.enter (arrive start steps) := by
  rw [enter, enter, isDir, isDir, h.find?_eq]

theorem take_eq {step : Step} (h : AgreeOn start (step :: steps) t t') :
    t'.take (arrive start steps) step = t.take (arrive start steps) step := by
  cases step with
  | here => rfl
  | up => rfl
  | down name =>
    have hfind := h.find?_eq
    rw [arrive] at hfind
    rw [take, take, hfind]

theorem follow_eq (h : AgreeOn start steps t t') :
    t'.follow start steps = t.follow start steps := by
  induction steps with
  | nil => rfl
  | cons step steps ih =>
    rw [follow, follow, ih h.of_cons]
    refine bind_congr_ok fun loc hfollow => ?_
    rw [eq_arrive_of_follow hfollow, h.of_cons.enter_eq]
    refine bind_congr_ok fun loc henter => ?_
    rw [(enter_eq_ok_iff.mp henter).2, h.take_eq]

/-- A text reads the same in trees that agree on the way to it. -/
theorem readText_eq (h : AgreeOn (startOf cwd path) (Path.steps path) t t') :
    t'.readText cwd path = t.readText cwd path := by
  refine readText_congr ?_ h.find?_eq
  rw [locate, locate, h.follow_eq]
  refine bind_congr fun _ => bind_congr_ok fun loc hfollow => ?_
  rw [eq_arrive_of_follow hfollow, h.enter_eq]

/-- The same file can be written in trees that agree on the way to it. -/
theorem target_eq (h : AgreeOn (startOf cwd path) (Path.steps path) t t') :
    t'.target cwd path = t.target cwd path := by
  rw [target, target]
  refine bind_congr fun _ => ?_
  generalize Path.steps path = steps at h ⊢
  split
  · rename_i name steps
    rw [h.of_cons.follow_eq]
    refine bind_congr_ok fun dir hfollow => ?_
    rw [eq_arrive_of_follow hfollow, h.of_cons.enter_eq]
    refine bind_congr_ok fun dir henter => ?_
    have hfind := h.find?_eq
    rw [arrive] at hfind
    rw [(enter_eq_ok_iff.mp henter).2, isDir, isDir, hfind]
  · rw [h.follow_eq]

end AgreeOn

/-! ## Directories that are made -/

/-- A directory that was missing at the end of the steps or above it, and is there now. -/
structure Made (start : Location) (steps : List Step) (t t' : FileTree) (loc : Location) :
    Prop where
  onWay : OnWay start steps loc
  missing : t.find? loc = none
  made : t'.find? loc = some .dir

theorem above_suffix (steps : List Step) : Path.above steps <:+ steps :=
  (List.dropWhile_suffix _).trans ((List.drop_suffix 1 _).trans (List.dropWhile_suffix _))

/-- The place of a directory that is to be made. -/
def freePlace (t : FileTree) (start : Location) : List Step → Except SystemError Location
  | .down name :: steps => do
    let dir ← t.enter (← t.follow start steps)
    if Path.isLong Path.maxName name then .error .nameTooLong
    else if (t.find? (name :: dir)).isSome then .error .alreadyExists
    else return name :: dir
  | [] => .error .alreadyExists
  | _ :: steps => do
    let _ ← t.enter (← t.follow start steps)
    .error .alreadyExists

theorem makeDir_eq (t : FileTree) (start : Location) (steps : List Step) :
    t.makeDir start steps = (fun loc => t.put loc .dir) <$> t.freePlace start steps := by
  unfold makeDir freePlace
  split
  · simp only [map_bind]
    congr 1
    funext loc
    congr 1
    funext dir
    split
    · rfl
    · split <;> rfl
  · rfl
  · simp only [map_bind]
    rfl

theorem freePlace_eq_ok_iff : t.freePlace start steps = .ok loc ↔
    ∃ name outer dir, steps = .down name :: outer ∧ t.follow start outer = .ok dir ∧
      t.isDir dir = true ∧ Path.isLong Path.maxName name = false ∧ t.find? (name :: dir) = none ∧
      loc = name :: dir := by
  constructor
  · intro h
    unfold freePlace at h
    split at h
    · rename_i name outer
      obtain ⟨dir, hfollow, _, henter, h⟩ := by simpa only [bind_eq_ok_iff] using h
      obtain ⟨hdir, rfl⟩ := enter_eq_ok_iff.mp henter
      split at h
      · exact absurd h (by simp)
      · rename_i hlong
        split at h
        · exact absurd h (by simp)
        · rename_i hfree
          exact ⟨name, outer, _, rfl, hfollow, hdir, by simpa using hlong, by simpa using hfree,
            (Except.ok.inj h).symm⟩
    · exact absurd h (by simp)
    · obtain ⟨_, -, h⟩ := bind_eq_ok_iff.mp h
      exact absurd h (by simp [bind_eq_ok_iff])
  · rintro ⟨name, outer, dir, rfl, hfollow, hdir, hlong, hfree, rfl⟩
    simp only [freePlace, bind_eq_ok_iff]
    refine ⟨dir, hfollow, dir, enter_eq_ok_iff.mpr ⟨hdir, rfl⟩, ?_⟩
    simp [hlong, hfree, pure, Except.pure]

/-- A directory that is made takes a place that was free, below a directory. -/
theorem makeDir_eq_ok_iff : t.makeDir start steps = .ok t' ↔
    ∃ loc, t.freePlace start steps = .ok loc ∧ t' = t.put loc .dir := by
  rw [makeDir_eq, map_eq_ok_iff]
  exact exists_congr fun loc => and_congr_right fun _ => eq_comm

theorem made_of_makeDir (h : t.makeDir start steps = .ok t') :
    ChangesWithin (Made start steps t t') t t' := by
  obtain ⟨_, hplace, rfl⟩ := makeDir_eq_ok_iff.mp h
  obtain ⟨name, outer, dir, rfl, hfollow, -, -, hfree, rfl⟩ := freePlace_eq_ok_iff.mp hplace
  intro loc hne
  obtain rfl := changesWithin_put t _ _ loc hne
  refine ⟨⟨_, List.suffix_refl _, ?_⟩, hfree, find?_put_self t _ (by simp)⟩
  rw [arrive, ← eq_arrive_of_follow hfollow]

theorem made_of_makeLast : ChangesWithin (Made start steps t (t.makeLast start steps).1) t
    (t.makeLast start steps).1 := by
  unfold makeLast
  split
  · rename_i hmade
    exact made_of_makeDir hmade
  · split
    · exact ChangesWithin.refl _ _
    · exact ChangesWithin.refl _ _

/-- What is made on the way stays when more is made. -/
theorem Made.trans_keeps {way : List Step} (h : Made start way t t' loc) (hway : way <:+ steps)
    (hkeeps : Keeps t' t'') : Made start steps t t'' loc := by
  obtain ⟨⟨outer, houter, hloc⟩, hmissing, hmade⟩ := h
  exact ⟨⟨outer, houter.trans hway, hloc⟩, hmissing, hkeeps loc .dir hmade⟩

theorem made_of_makeDirs : ChangesWithin (Made start steps t (t.makeDirs start steps).1) t
    (t.makeDirs start steps).1 := by
  fun_induction makeDirs t start steps with
  | case1 => exact ChangesWithin.refl _ _
  | case2 step steps hmissing t₁ hbelow ih =>
    rw [hbelow] at ih
    intro loc hne
    by_cases hfirst : t₁.find? loc = t.find? loc
    · obtain ⟨hway, hfree, hmade⟩ := made_of_makeLast loc (hfirst ▸ hne)
      exact ⟨hway, hfirst ▸ hfree, hmade⟩
    · exact (ih loc hfirst).trans_keeps (above_suffix _) keeps_makeLast
  | case3 step steps hmissing t₁ e hbelow ih =>
    rw [hbelow] at ih
    exact ih.mono fun loc hmade => hmade.trans_keeps (above_suffix _) (Keeps.refl _)
  | case4 => exact made_of_makeLast

/-- **Making directories** fills places that were free, on the way to the directory. -/
theorem made_of_createDirs :
    ChangesWithin (Made (startOf cwd path) (Path.steps path) t (t.createDirs cwd path).1) t
      (t.createDirs cwd path).1 := by
  unfold createDirs
  split
  · exact ChangesWithin.refl _ _
  · split
    · exact made_of_makeDirs
    · exact ChangesWithin.refl _ _

/-! ## Directories that are there -/

theorem leadsToDir_iff : t.leadsToDir start steps = true ↔
    ∃ loc, t.follow start steps = .ok loc ∧ t.isDir loc = true := by
  unfold leadsToDir
  split
  · rename_i loc hfollow
    simp [hfollow]
  · rename_i e hfollow
    simp [hfollow]

theorem Grows.leadsToDir (h : Grows t t') (hdir : t.leadsToDir start steps = true) :
    t'.leadsToDir start steps = true := by
  obtain ⟨loc, hfollow, hloc⟩ := leadsToDir_iff.mp hdir
  exact leadsToDir_iff.mpr ⟨loc, h.follow hfollow, h.isDir loc hloc⟩

/-- A directory that is there cannot be made, but not because something above it is missing. -/
theorem makeDir_of_leadsToDir {step : Step} (h : t.leadsToDir start (step :: steps) = true) :
    t.makeDir start (step :: steps) = .error .alreadyExists := by
  obtain ⟨loc, hto, -⟩ := leadsToDir_iff.mp h
  obtain ⟨dir, hfollow, hdir, htake⟩ := follow_cons_eq_ok_iff.mp hto
  have henter : t.enter dir = .ok dir := enter_eq_ok_iff.mpr ⟨hdir, rfl⟩
  cases step with
  | here => simp [makeDir, hfollow, henter, bind, Except.bind]
  | up => simp [makeDir, hfollow, henter, bind, Except.bind]
  | down name =>
    obtain ⟨hlong, hpresent, -⟩ := take_down_eq_ok_iff.mp htake
    simp [makeDir, hfollow, henter, hlong, hpresent, bind, Except.bind]

theorem makeLast_of_leadsToDir {step : Step} (h : t.leadsToDir start (step :: steps) = true) :
    t.makeLast start (step :: steps) = (t, .ok ()) := by
  simp only [makeLast, makeDir_of_leadsToDir h, h, if_true]

theorem makeDirs_of_leadsToDir {step : Step} (h : t.leadsToDir start (step :: steps) = true) :
    t.makeDirs start (step :: steps) = (t, .ok ()) := by
  simp only [makeDirs, makeDir_of_leadsToDir h, makeLast_of_leadsToDir h]

theorem leadsToDir_of_makeLast (h : (t.makeLast start steps).2 = .ok ()) :
    (t.makeLast start steps).1.leadsToDir start steps = true := by
  unfold makeLast at h ⊢
  split
  · rename_i made hmade
    have hgrows := (keeps_makeDir hmade).grows
    obtain ⟨_, hplace, rfl⟩ := makeDir_eq_ok_iff.mp hmade
    obtain ⟨name, outer, dir, rfl, hfollow, hdir, hlong, -, rfl⟩ := freePlace_eq_ok_iff.mp hplace
    have hself := find?_put_self t .dir (List.cons_ne_nil name dir)
    refine leadsToDir_iff.mpr ⟨name :: dir, ?_, isDir_iff.mpr hself⟩
    refine follow_cons_eq_ok_iff.mpr ⟨dir, hgrows.follow hfollow, hgrows.isDir dir hdir, ?_⟩
    exact take_down_eq_ok_iff.mpr ⟨hlong, by rw [hself]; rfl, rfl⟩
  · rename_i e hfailed
    simp only [hfailed] at h
    split at h
    · rename_i hdir
      rwa [if_pos hdir]
    · exact absurd h (by simp)

theorem leadsToDir_of_makeDirs {step : Step}
    (h : (t.makeDirs start (step :: steps)).2 = .ok ()) :
    (t.makeDirs start (step :: steps)).1.leadsToDir start (step :: steps) = true := by
  unfold makeDirs at h ⊢
  split at h
  · split at h
    · exact leadsToDir_of_makeLast h
    · exact absurd h (by simp)
  · exact leadsToDir_of_makeLast h

/-- A directory that was made once is there, also after more has grown. -/
theorem createDirs_again (h : (t.createDirs cwd path).2 = .ok ())
    (hgrows : Grows (t.createDirs cwd path).1 t') : t'.createDirs cwd path = (t', .ok ()) := by
  unfold createDirs at h hgrows ⊢
  split at h
  · rename_i hempty
    rw [if_pos hempty]
  · rename_i hempty
    rw [if_neg hempty] at hgrows ⊢
    split at h
    · rename_i hcheck
      simp only [hcheck] at hgrows ⊢
      generalize Path.steps path = steps at h hgrows ⊢
      cases steps with
      | nil => simp only [makeDirs]
      | cons step steps =>
        exact makeDirs_of_leadsToDir (hgrows.leadsToDir (leadsToDir_of_makeDirs h))
    · exact absurd h (by simp)

/-- A file that was written can be written again. -/
theorem target_again {bytes : ByteArray} (h : t.writeBytes cwd path bytes = .ok t') :
    t'.target cwd path = .ok (destination cwd path) := by
  obtain ⟨htouches, -, hfile⟩ := touches_of_writeBytes h
  obtain ⟨loc, htarget, -⟩ := bind_eq_ok_iff.mp h
  obtain rfl := eq_destination_of_target htarget
  obtain ⟨name, steps, dir, hcheck, hsteps, hfollow, hdir, hslash, hlong, -, hloc⟩ :=
    target_eq_ok_iff.mp htarget
  refine target_eq_ok_iff.mpr ⟨name, steps, dir, hcheck, hsteps, htouches.grows.follow hfollow,
    htouches.grows.isDir dir hdir, hslash, hlong, ?_, hloc⟩
  rw [← hloc, isDir, hfile]
  rfl

/-! ## The shape of a tree -/

/-- The same places are taken, by directories or by files; what the files hold may differ. -/
structure SameShape (t t' : FileTree) : Prop where
  present : ∀ loc, (t'.find? loc).isSome = (t.find? loc).isSome
  isDir : ∀ loc, t'.isDir loc = t.isDir loc

namespace SameShape

theorem symm (h : SameShape t t') : SameShape t' t :=
  ⟨fun loc => (h.present loc).symm, fun loc => (h.isDir loc).symm⟩

theorem enter_eq (h : SameShape t t') (loc : Location) : t'.enter loc = t.enter loc := by
  rw [enter, enter, h.isDir]

theorem take_eq (h : SameShape t t') (loc : Location) (step : Step) :
    t'.take loc step = t.take loc step := by
  cases step with
  | here => rfl
  | up => rfl
  | down name => rw [take, take, h.present]

theorem follow_eq (h : SameShape t t') (start : Location) (steps : List Step) :
    t'.follow start steps = t.follow start steps := by
  induction steps with
  | nil => rfl
  | cons step steps ih => simp only [follow, ih, h.enter_eq, h.take_eq]

/-- A file that has not changed reads the same. -/
theorem readText_eq (h : SameShape t t')
    (hfind : t'.find? (destination cwd path) = t.find? (destination cwd path)) :
    t'.readText cwd path = t.readText cwd path :=
  readText_congr (by simp only [locate, h.follow_eq, h.enter_eq]) hfind

theorem target_eq (h : SameShape t t') (cwd : Location) (path : String) :
    t'.target cwd path = t.target cwd path := by
  simp only [target, h.follow_eq, h.enter_eq, h.isDir]

theorem put (h : SameShape t t') (entry : Entry) (hne : loc ≠ []) :
    SameShape (t.put loc entry) (t'.put loc entry) := by
  refine ⟨fun other => ?_, fun other => ?_⟩
  · by_cases hother : other = loc
    · rw [hother, find?_put_self t entry hne, find?_put_self t' entry hne]
    · rw [find?_put_of_ne t entry hother, find?_put_of_ne t' entry hother, h.present]
  · by_cases hother : other = loc
    · rw [hother, FileTree.isDir, FileTree.isDir, find?_put_self t entry hne,
        find?_put_self t' entry hne]
    · have hdir := h.isDir other
      unfold FileTree.isDir at hdir ⊢
      rw [find?_put_of_ne t entry hother, find?_put_of_ne t' entry hother, hdir]

theorem freePlace_eq (h : SameShape t t') (start : Location) (steps : List Step) :
    t'.freePlace start steps = t.freePlace start steps := by
  unfold freePlace
  simp only [h.follow_eq, h.enter_eq, h.present]

/-- In trees of one shape the same directory can be made, or cannot be made for the same reason. -/
theorem makeDir_cases (h : SameShape t t') (start : Location) (steps : List Step) :
    (∃ e, t.makeDir start steps = .error e ∧ t'.makeDir start steps = .error e) ∨
      ∃ made made', t.makeDir start steps = .ok made ∧ t'.makeDir start steps = .ok made' ∧
        SameShape made made' := by
  rw [makeDir_eq, makeDir_eq, h.freePlace_eq]
  cases hplace : t.freePlace start steps with
  | error e => exact Or.inl ⟨e, rfl, rfl⟩
  | ok loc =>
    obtain ⟨name, outer, dir, -, -, -, -, -, rfl⟩ := freePlace_eq_ok_iff.mp hplace
    exact Or.inr ⟨_, _, rfl, rfl, h.put .dir (by simp)⟩

theorem makeDir_missing (h : SameShape t t')
    (hmissing : t.makeDir start steps = .error .notFound) :
    t'.makeDir start steps = .error .notFound := by
  rcases h.makeDir_cases start steps with ⟨e, he, he'⟩ | ⟨made, made', hmade, -, -⟩
  · rwa [← he.symm.trans hmissing]
  · exact absurd (hmade.symm.trans hmissing) (by simp)

theorem leadsToDir_eq (h : SameShape t t') (start : Location) (steps : List Step) :
    t'.leadsToDir start steps = t.leadsToDir start steps := by
  unfold FileTree.leadsToDir
  simp only [h.follow_eq, h.isDir]

theorem makeLast (h : SameShape t t') (start : Location) (steps : List Step) :
    SameShape (t.makeLast start steps).1 (t'.makeLast start steps).1 ∧
      (t'.makeLast start steps).2 = (t.makeLast start steps).2 := by
  unfold FileTree.makeLast
  rcases h.makeDir_cases start steps with ⟨e, he, he'⟩ | ⟨made, made', hmade, hmade', hsame⟩
  · simp only [he, he', h.leadsToDir_eq]
    split
    · exact ⟨h, rfl⟩
    · exact ⟨h, rfl⟩
  · rw [hmade, hmade']
    exact ⟨hsame, rfl⟩

theorem makeDirs (h : SameShape t t') (start : Location) (steps : List Step) :
    SameShape (t.makeDirs start steps).1 (t'.makeDirs start steps).1 ∧
      (t'.makeDirs start steps).2 = (t.makeDirs start steps).2 := by
  fun_induction FileTree.makeDirs t start steps with
  | case1 =>
    rw [FileTree.makeDirs]
    exact ⟨h, rfl⟩
  | case2 step steps hmissing t₁ hbelow ih =>
    rw [hbelow] at ih
    rw [FileTree.makeDirs, h.makeDir_missing hmissing]
    generalize t'.makeDirs start (Path.above (step :: steps)) = outcome at ih ⊢
    obtain ⟨t₁', result⟩ := outcome
    obtain ⟨hsame, rfl⟩ := ih
    exact hsame.makeLast start (step :: steps)
  | case3 step steps hmissing t₁ e hbelow ih =>
    rw [hbelow] at ih
    rw [FileTree.makeDirs, h.makeDir_missing hmissing]
    generalize t'.makeDirs start (Path.above (step :: steps)) = outcome at ih ⊢
    obtain ⟨t₁', result⟩ := outcome
    obtain ⟨hsame, rfl⟩ := ih
    exact ⟨hsame, rfl⟩
  | case4 step steps hother =>
    have hother' : t'.makeDir start (step :: steps) ≠ .error .notFound :=
      fun hmissing => hother (h.symm.makeDir_missing hmissing)
    rw [FileTree.makeDirs]
    split
    · rename_i hmissing
      exact absurd hmissing hother'
    · exact h.makeLast start (step :: steps)

/-- The same directories can be made in trees of one shape. -/
theorem createDirs (h : SameShape t t') (cwd : Location) (path : String) :
    SameShape (t.createDirs cwd path).1 (t'.createDirs cwd path).1 ∧
      (t'.createDirs cwd path).2 = (t.createDirs cwd path).2 := by
  unfold FileTree.createDirs
  split
  · exact ⟨h, rfl⟩
  · split
    · exact h.makeDirs _ _
    · exact ⟨h, rfl⟩

end SameShape

end FolderFlow.FileTree
