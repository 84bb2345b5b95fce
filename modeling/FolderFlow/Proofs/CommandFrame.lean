import FolderFlow.Proofs.Hosts
import FolderFlow.Proofs.PatchFrame

/-!
# What a command leaves behind

Each command looks before it writes: it reads the configuration, and for the docs their file too,
and all faults that it may find are found by then, except that a file cannot be written. So a
command that fails leaves the files as they were, and one that succeeds changes no more than the
places that are its own (`Command.ends_run`).

Any call may be refused, at any time. It is only asked for that nothing can be written where it
cannot be told whether there is something (`Watched.Discreet`), and that the formatter, where one is
to be run, cannot be started. One that no name leads to cannot (`Command.startsNothing_run`).
-/

namespace FolderFlow

open FileTree (ChangesWithin destination)

variable {α β : Type} {s s₁ s' : Watched}

/-! ## Runs go forward -/

/-- Whatever it asks, the computation ends in a later state. -/
def Watch.Advances (x : Watch α) : Prop :=
  ∀ s : Watched, ∃ asked, s.Follows asked (x.run s).2

namespace Watch.Advances

theorem pure (a : α) : Advances (Pure.pure a) :=
  fun s => ⟨[], .refl s⟩

theorem bind {x : Watch α} {f : α → Watch β} (hx : Advances x) (hf : ∀ a, Advances (f a)) :
    Advances (x >>= f) := by
  intro s
  obtain ⟨asked, hfollows⟩ := hx s
  obtain ⟨asked', hfollows'⟩ := hf (x.run s).1 (x.run s).2
  exact ⟨_, hfollows.trans hfollows'⟩

theorem call (call : Call) : Advances call.on := by
  intro s
  rw [call.run_on_watched]
  exact ⟨_, .ask s call⟩

theorem relates : Host.Relates fun α (x _ : Watch α) => Advances x :=
  .of_calls ⟨.pure, .bind⟩ .call

end Watch.Advances

open Watch (Advances)

/-! ## Runs that leave the files alone -/

/-- A later state with the same files, before which no program has been started. -/
structure Watched.KeepsFiles (s s' : Watched) : Prop where
  later : ∃ asked, s.Follows asked s' ∧ ∀ event ∈ asked, event.exit? = none
  tree : s'.world.tree = s.world.tree

namespace Watched.KeepsFiles

theorem refl (s : Watched) : s.KeepsFiles s :=
  ⟨⟨[], .refl s, by simp⟩, rfl⟩

theorem trans (h : s.KeepsFiles s₁) (h' : s₁.KeepsFiles s') : s.KeepsFiles s' := by
  obtain ⟨asked, hfollows, hnone⟩ := h.later
  obtain ⟨asked', hfollows', hnone'⟩ := h'.later
  exact ⟨⟨_, hfollows.trans hfollows', List.forall_mem_append.mpr ⟨hnone, hnone'⟩⟩,
    h'.tree.trans h.tree⟩

theorem cwd (h : s.KeepsFiles s') : s'.world.cwd = s.world.cwd := by
  obtain ⟨_, hfollows, -⟩ := h.later
  exact hfollows.cwd

theorem startsNothing (h : s.KeepsFiles s') : s.StartsNothing s' := by
  obtain ⟨_, hfollows, hnone⟩ := h.later
  exact (Watched.startsNothing_iff hfollows.events).mpr hnone

/-- Nothing has been started before, so only what comes behind counts. -/
theorem startsNothing_iff (h : s.KeepsFiles s₁) (hlater : ∃ asked, s₁.Follows asked s') :
    s.StartsNothing s' ↔ s₁.StartsNothing s' := by
  obtain ⟨_, hfollows, -⟩ := h.later
  obtain ⟨_, hfollows'⟩ := hlater
  rw [hfollows.startsNothing_trans_iff hfollows', and_iff_right h.startsNothing]

theorem ask {call : Call} (h : (s.ask call).2.world.tree = s.world.tree)
    (hnone : Event.exit? ⟨call, (s.ask call).1⟩ = none) : s.KeepsFiles (s.ask call).2 :=
  ⟨⟨_, .ask s call, List.forall_mem_singleton.mpr hnone⟩, h⟩

end Watched.KeepsFiles

theorem Watched.ask_pathExists_world (s : Watched) (path : String) :
    (s.ask (.pathExists path)).2.world = s.world := by
  rcases s.ask_cases (.pathExists path) with ⟨r, -, h⟩ | ⟨-, h⟩
  · exact h
  · exact h

/-- The computation leaves the files as they are. -/
def Watch.LeavesFiles (x : Watch α) : Prop :=
  ∀ s : Watched, s.KeepsFiles (x.run s).2

namespace Watch.LeavesFiles

theorem pure (a : α) : LeavesFiles (Pure.pure a) :=
  fun s => .refl s

theorem bind {x : Watch α} {f : α → Watch β} (hx : LeavesFiles x) (hf : ∀ a, LeavesFiles (f a)) :
    LeavesFiles (x >>= f) := by
  intro s
  rw [run_bind]
  exact (hx s).trans (hf _ _)

theorem readText (path : String) : LeavesFiles (Host.readText path) :=
  fun s => .ask (congrArg World.tree (s.ask_readText_world path)) rfl

theorem pathExists (path : String) : LeavesFiles (Host.pathExists path) :=
  fun s => .ask (congrArg World.tree (s.ask_pathExists_world path)) rfl

theorem print (text : String) : LeavesFiles (Host.print text) :=
  fun s => .ask (s.ask_print_tree text) rfl

theorem relatesLooks : Host.RelatesLooks fun α (x _ : Watch α) => LeavesFiles x where
  pure := .pure
  bind := .bind
  readText := .readText
  pathExists := .pathExists

theorem relatesPrints : Host.RelatesPrints fun α (x _ : Watch α) => LeavesFiles x where
  pure := .pure
  bind := .bind
  print := .print

end Watch.LeavesFiles

open Watch (LeavesFiles)

namespace Command

variable {c : Config} {config : Option String} {path text : String} {notices : Watch Unit}
  {place place' : Location → Prop} {result : Except CommandError Unit}

theorem leavesFiles_load (config : Option String) : LeavesFiles (load config) :=
  LeavesFiles.relatesLooks.load config

theorem leavesFiles_printLines (lines : List String) : LeavesFiles (printLines lines) :=
  LeavesFiles.relatesPrints.printLines lines

theorem leavesFiles_warnOverrides (all : List FolderRules) : LeavesFiles (warnOverrides all) :=
  LeavesFiles.relatesPrints.warnOverrides all

theorem leavesFiles_runCheck (c : Config) : LeavesFiles (runCheck c) :=
  LeavesFiles.relatesPrints.runCheck c

theorem leavesFiles_runRules (c : Config) (format : ListingFormat) :
    LeavesFiles (runRules c format none) := by
  have hlisting : LeavesFiles (deliver (Listing.render c.folderRules format) none) :=
    .bind (.print _) fun _ => .pure _
  cases format with
  | text => exact hlisting
  | json => exact hlisting
  | eslint => exact .bind (leavesFiles_warnOverrides _) fun _ => hlisting

/-! ## Commands that write -/

/-- How a command ends: with the files as they were if it failed, and else with changes at these
places only. -/
structure Ends (s : Watched) (place : Location → Prop) (result : Except CommandError Unit)
    (s' : Watched) : Prop where
  failure : ∀ e, result = .error e → s'.world.tree = s.world.tree
  changes : ChangesWithin place s.world.tree s'.world.tree

theorem Ends.of_keepsFiles (h : s.KeepsFiles s') : Ends s place result s' := by
  refine ⟨fun _ _ => h.tree, ?_⟩
  rw [h.tree]
  exact .refl _ _

theorem Ends.after (h : s.KeepsFiles s₁) (h' : Ends s₁ place result s') :
    Ends s place result s' := by
  refine ⟨fun e he => ?_, ?_⟩
  · exact (h'.failure e he).trans h.tree
  · rw [← h.tree]
    exact h'.changes

theorem Ends.mono (h : Ends s place result s') (hle : ∀ loc, place loc → place' loc) :
    Ends s place' result s' :=
  ⟨h.failure, h.changes.mono hle⟩

/-- Writes a file and says so, or tells that it cannot be written. -/
def writeOut (path text : String) (notices : Watch Unit) : Watch (Except CommandError Unit) := do
  match ← Host.writeText path text with
  | .ok () =>
    notices
    return .ok ()
  | .error e => return .error (.unwritable path e)

/-- A file that cannot be written stays as it is, and so does everything else. -/
theorem ends_writeOut (hnotices : LeavesFiles notices) (path text : String) (s : Watched) :
    Ends s (fun loc => loc = destination s.world.cwd path ∧
        (s.ask (.writeText path text)).1 = .ok ())
      ((writeOut path text notices).run s).1 ((writeOut path text notices).run s).2 := by
  have hwithin := s.changesWithin_ask_writeText path text
  simp only [writeOut, Watch.run_bind, Watch.run_writeText]
  cases hwrite : (s.ask (.writeText path text)).1 with
  | error e =>
    have hworld := Watched.ask_writeText_world_of_error hwrite
    exact .of_keepsFiles (.ask (congrArg World.tree hworld) rfl)
  | ok =>
    have hkeeps := hnotices (s.ask (.writeText path text)).2
    simp only [Watch.run_bind, Watch.run_pure]
    refine ⟨fun e he => absurd he (by simp), ?_⟩
    rw [hkeeps.tree]
    exact hwithin.mono fun loc hloc => ⟨hloc, trivial⟩

/-! ### rules -/

theorem ends_runRules (c : Config) (format : ListingFormat) (path : String) (s : Watched) :
    Ends s (· = destination s.world.cwd path)
      ((runRules c format (some path) : Watch _).run s).1
      ((runRules c format (some path) : Watch _).run s).2 := by
  have hlisting (s : Watched) : Ends s (· = destination s.world.cwd path)
      ((deliver (Listing.render c.folderRules format) (some path) : Watch _).run s).1
      ((deliver (Listing.render c.folderRules format) (some path) : Watch _).run s).2 :=
    (ends_writeOut (.print _) path _ s).mono fun _ hloc => hloc.1
  cases format with
  | text => exact hlisting s
  | json => exact hlisting s
  | eslint =>
    have hwarned := leavesFiles_warnOverrides c.folderRules s
    refine .after hwarned ?_
    rw [← hwarned.cwd]
    exact hlisting _

/-! ### init -/

end Command

/-- Where it cannot be told whether there is something at a path, nothing can be written there
next. -/
def Watched.Discreet (s : Watched) : Prop :=
  ∀ events path text, (s.refuses events (.pathExists path)).isSome = true →
    (s.refuses (events ++ [⟨.pathExists path, false⟩]) (.writeText path text)).isSome = true

theorem World.discreet_watched (w : World) : w.watched.Discreet := by
  intro events path text hrefused
  exact absurd hrefused (by simp [World.watched])

namespace Command

variable {force : Bool}

/-- Where the configuration of a new project is put. -/
def initPath : String :=
  Path.join projectDir ConfigSource.jsonName

/-- Where nothing was found, nothing is written over. -/
theorem free_of_written (hs : s.Discreet) {path text : String}
    (hlooked : (s.ask (.pathExists path)).1 = false)
    (hwrite : ((s.ask (.pathExists path)).2.ask (.writeText path text)).1 = .ok ()) :
    s.world.tree.find? (destination s.world.cwd path) = none := by
  have hworld := s.ask_pathExists_world path
  have hevents := s.ask_events (.pathExists path)
  rw [hlooked] at hevents
  cases hrefused : s.refuses s.events (.pathExists path) with
  | some r =>
    -- what cannot be looked at cannot be written
    have hunwritable := hs s.events path text (by rw [hrefused]; rfl)
    rw [← hevents, ← s.ask_refuses (.pathExists path)] at hunwritable
    obtain ⟨r', hr'⟩ := Option.isSome_iff_exists.mp hunwritable
    rw [Watched.ask, Watched.answer, hr'] at hwrite
    exact absurd hwrite (by simp [Call.refused])
  | none =>
    have hanswer := (Watched.ask_of_granted hrefused).1
    rw [hlooked] at hanswer
    obtain ⟨tree, hwritten, -⟩ := World.exists_of_writeText (Watched.writeText_of_ask hwrite)
    obtain ⟨loc, htarget, -⟩ := bind_eq_ok_iff.mp hwritten
    rw [hworld] at htarget
    obtain rfl := FileTree.eq_destination_of_target htarget
    cases hfind : s.world.tree.find? (destination s.world.cwd path) with
    | none => rfl
    | some entry =>
      have hlocate := FileTree.locate_of_target htarget (by rw [hfind]; rfl)
      have hexists : s.world.pathExists path = true := by
        rw [World.pathExists, hlocate]
        rfl
      exact absurd (hanswer.trans hexists) (by simp)

theorem ends_runInit (hs : s.Discreet) (force : Bool) :
    Ends s (fun loc => loc = destination s.world.cwd initPath ∧
        (force = false → s.world.tree.find? loc = none))
      ((runInit force : Watch _).run s).1 ((runInit force : Watch _).run s).2 := by
  have hlooked := LeavesFiles.pathExists initPath s
  have hrun : (runInit force : Watch _).run s =
      (if (s.ask (.pathExists initPath)).1 && !force then pure (.error (.configExists initPath))
        else writeOut initPath defaultConfig (printLines nextSteps) : Watch _).run
        (s.ask (.pathExists initPath)).2 :=
    rfl
  rw [hrun]
  split
  · exact .of_keepsFiles hlooked
  · rename_i hgoes
    refine .after hlooked ?_
    refine (ends_writeOut (leavesFiles_printLines nextSteps) initPath defaultConfig _).mono ?_
    rintro loc ⟨rfl, hwrite⟩
    rw [← hlooked.cwd]
    refine ⟨rfl, fun hforce => ?_⟩
    rw [hlooked.cwd]
    refine free_of_written hs ?_ hwrite
    simpa [hforce] using hgoes

end Command

/-! ### docs -/

theorem Watched.Follows.lacks {asked : List Event} {name : String} (h : s.Follows asked s')
    (hlacks : s.world.Lacks name) : s'.world.Lacks name := by
  rw [h.rest]
  exact hlacks

theorem Docs.Rewrites.exit?_eq_none {ε : Type} {compile : String → Except ε Unit} {path : String}
    {flow : Flow} {docs : DocsOptions} {result : Except (DocsError ε) Bool} {own : List Event}
    (h : Docs.Rewrites compile path flow docs result own) : ∀ event ∈ own, event.exit? = none := by
  cases h <;> simp [Event.exit?]

namespace DocsPatcher

variable {ε : Type} {p : DocsPatcher ε} {flow : Flow} {docs : DocsOptions} {asked : List Event}
  {w : World} {t t' : FileTree}

/-- What was missing behind the docs file was missing before, the docs file itself apart. -/
theorem cachePlace_of_rewritten {cwd docsFile loc : Location}
    (hwithin : ChangesWithin (· = docsFile) w.tree t) (hplace : p.CachePlace cwd t t' loc) :
    loc = docsFile ∨ p.CachePlace cwd w.tree t' loc := by
  by_cases hsame : t.find? loc = w.tree.find? loc
  · obtain ⟨cache, hcache, hclaims⟩ := hplace
    refine Or.inr ⟨cache, hcache, hclaims.imp_right fun hmade => ?_⟩
    exact ⟨hmade.onWay, hsame ▸ hmade.missing, hmade.made⟩
  · exact Or.inl (hwithin loc hsame)

/-- Where no formatter is to be run or none was started, the files are as they were before. -/
theorem FormatterEnds.eq (h : p.FormatterEnds asked w t t')
    (hnone : p.formatter = none ∨ ∀ event ∈ asked, event.exit? = none) : t' = t := by
  rcases h with ⟨-, rfl⟩ | ⟨f, target, exit, program, dir, hf, hmem, -⟩
  · rfl
  · rcases hnone with hnone | hnone
    · exact absurd (hf.symm.trans hnone) (by simp)
    · exact absurd (hnone _ hmem) (by simp [Event.exit?])

theorem RecordCall.exit?_eq_none {hash : String} {event : Event}
    (h : p.RecordCall hash event.call) : event.exit? = none := by
  obtain ⟨cache, -, hcall⟩ := h
  obtain ⟨call, answer⟩ := event
  cases hcall <;> rfl

/-- Only the formatter is started in a patch. -/
theorem Succeeds.startsNothing_iff {own formatting recording : List Event}
    {rewritten formatted : FileTree} {report : PatchReport}
    (h : p.Succeeds flow docs s own formatting recording rewritten formatted report s') :
    s.StartsNothing s' ↔ ∀ event ∈ formatting, event.exit? = none := by
  have hevents := h.events
  rw [List.append_assoc, List.append_assoc] at hevents
  rw [Watched.startsNothing_iff hevents, List.forall_mem_append, List.forall_mem_append]
  constructor
  · rintro ⟨-, hformatting, -⟩
    exact hformatting
  · intro hformatting
    exact ⟨h.ownCalls.exit?_eq_none, hformatting,
      fun event hevent => (h.recordCalls event hevent).exit?_eq_none⟩

theorem frame_of_patch {result : Except (DocsError ε) PatchReport}
    (h : (p.patch flow docs : Watch _).run s = (result, s'))
    (hnone : p.formatter = none ∨ s.StartsNothing s') :
    (∀ e, result = .error e → s'.world.tree = s.world.tree) ∧
    ChangesWithin (fun loc => loc = destination s.world.cwd (p.docsPath docs) ∨
      p.CachePlace s.world.cwd s.world.tree s'.world.tree loc) s.world.tree s'.world.tree := by
  have hcases := p.patch_cases flow docs s
  rw [h] at hcases
  cases result with
  | error error =>
    have htree := congrArg World.tree hcases.world
    refine ⟨fun _ _ => htree, ?_⟩
    rw [htree]
    exact .refl _ _
  | ok report =>
    obtain ⟨own, formatting, recording, rewritten, formatted, hsucceeds⟩ := hcases
    have hformatted : formatted = rewritten :=
      hsucceeds.formatter.eq (hnone.imp_right hsucceeds.startsNothing_iff.mp)
    have hdocs := hsucceeds.docsFile.frame.mono fun _ hloc => hloc.2
    have hcache := hsucceeds.cacheFiles
    rw [hformatted] at hcache
    refine ⟨by simp, fun loc hne => ?_⟩
    by_cases hsame : s'.world.tree.find? loc = rewritten.find? loc
    · exact Or.inl (hdocs loc (hsame ▸ hne))
    · exact cachePlace_of_rewritten hdocs (hcache loc hsame)

/-! ### A formatter that no name leads to -/

theorem FormatterRan.not_lacks (h : p.FormatterRan asked w t t') :
    ∃ f, p.formatter = some f ∧ ¬ w.Lacks f.program := by
  obtain ⟨f, target, exit, program, dir, hf, -, hfound, -⟩ := h
  exact ⟨f, hf, fun hlacks => hlacks.findProgram_ne t _ hfound⟩

theorem startsNothing_patch (flow : Flow) (docs : DocsOptions)
    (hlacks : ∀ f, p.formatter = some f → s.world.Lacks f.program) :
    s.StartsNothing ((p.patch flow docs : Watch _).run s).2 := by
  have hcases := p.patch_cases flow docs s
  generalize (p.patch flow docs : Watch _).run s = outcome at hcases ⊢
  obtain ⟨result, s'⟩ := outcome
  cases result with
  | error error =>
    obtain ⟨own, hevents, hown⟩ := hcases.asked
    exact (Watched.startsNothing_iff hevents).mpr hown.exit?_eq_none
  | ok report =>
    obtain ⟨own, formatting, recording, rewritten, formatted, hsucceeds⟩ := hcases
    refine hsucceeds.startsNothing_iff.mpr ?_
    rcases hsucceeds.formatter with ⟨hnone, -⟩ | hran
    · exact hnone
    · obtain ⟨f, hf, hfound⟩ := hran.not_lacks
      exact absurd (hlacks f hf) hfound

end DocsPatcher

namespace Command

/-- The cache of the docs command. -/
def cacheOf (cacheDir : Option String) : DirCache :=
  ⟨cacheDir.getD (Path.join projectDir DirCache.defaultDir)⟩

/-- The places of the docs command, as far as the configuration has docs. -/
def DocsPlace (c : Config) (cacheDir : Option String) (cwd : Location) (t t' : FileTree)
    (loc : Location) : Prop :=
  ∃ docs, c.docs = some docs ∧ (loc = destination cwd (Path.join projectDir docs.file) ∨
    (cacheOf cacheDir).Claims cwd t t' loc)

theorem program_of_patcher {format : Bool} {cacheDir : Option String} {f : Formatter}
    (h : (patcher format cacheDir).formatter = some f) :
    f.program = Formatter.prettier.program := by
  cases format with
  | true =>
    obtain rfl := Option.some.inj h
    rfl
  | false => simp [patcher] at h

theorem ends_runDocs (c : Config) (format : Bool) (cacheDir : Option String)
    (hnone : format = true →
      s.StartsNothing ((runDocs c format cacheDir : Watch _).run s).2) :
    Ends s (DocsPlace c cacheDir s.world.cwd s.world.tree
        ((runDocs c format cacheDir : Watch _).run s).2.world.tree)
      ((runDocs c format cacheDir : Watch _).run s).1
      ((runDocs c format cacheDir : Watch _).run s).2 := by
  unfold runDocs at hnone ⊢
  cases hdocs : c.docs with
  | none => exact .of_keepsFiles (.ask (s.ask_print_tree _) rfl)
  | some docs =>
    obtain ⟨asked, hfollows⟩ :=
      Advances.relates.patch (patcher format cacheDir) c.flow docs s
    simp only [hdocs, Watch.run_bind] at hnone ⊢
    generalize hpatch : ((patcher format cacheDir).patch c.flow docs : Watch _).run s = outcome
      at hnone hfollows ⊢
    obtain ⟨result, s₁⟩ := outcome
    have hplace : ∀ {t' : FileTree} (loc : Location),
        loc = destination s.world.cwd ((patcher format cacheDir).docsPath docs) ∨
          (patcher format cacheDir).CachePlace s.world.cwd s.world.tree t' loc →
        DocsPlace c cacheDir s.world.cwd s.world.tree t' loc := by
      rintro t' loc (hloc | ⟨cache, hcache, hclaims⟩)
      · exact ⟨docs, hdocs, Or.inl hloc⟩
      · obtain rfl := Option.some.inj hcache
        exact ⟨docs, hdocs, Or.inr hclaims⟩
    have hunstarted : (patcher format cacheDir).formatter = none ∨ s.StartsNothing s₁ := by
      cases format with
      | false => exact Or.inl rfl
      | true =>
        refine Or.inr ?_
        cases result with
        | error e => exact hnone rfl
        | ok report => exact ((hfollows.startsNothing_trans_iff (.ask s₁ _)).mp (hnone rfl)).1
    obtain ⟨hfailure, hchanges⟩ := DocsPatcher.frame_of_patch hpatch hunstarted
    cases result with
    | error e => exact ⟨fun _ _ => hfailure e rfl, hchanges.mono hplace⟩
    | ok report =>
      have hprinted := s₁.ask_print_tree (describeReport report ++ "\n")
      refine ⟨fun e he => absurd he (by simp), ?_⟩
      change ChangesWithin (DocsPlace c cacheDir _ _ (s₁.ask (.print _)).2.world.tree) _
        (s₁.ask (.print _)).2.world.tree
      rw [hprinted]
      exact hchanges.mono hplace

theorem startsNothing_runDocs (hlacks : s.world.Lacks Formatter.prettier.program) (c : Config)
    (format : Bool) (cacheDir : Option String) :
    s.StartsNothing ((runDocs c format cacheDir : Watch _).run s).2 := by
  unfold runDocs
  cases c.docs with
  | none => exact Watched.KeepsFiles.startsNothing (.ask (s.ask_print_tree _) rfl)
  | some docs =>
    have hpatch := DocsPatcher.startsNothing_patch (p := patcher format cacheDir) c.flow docs
      fun f hf => (program_of_patcher hf).symm ▸ hlacks
    obtain ⟨asked, hfollows⟩ :=
      Advances.relates.patch (patcher format cacheDir) c.flow docs s
    simp only [Watch.run_bind]
    generalize ((patcher format cacheDir).patch c.flow docs : Watch _).run s = outcome
      at hpatch hfollows ⊢
    obtain ⟨result, s₁⟩ := outcome
    cases result with
    | error e => exact hpatch
    | ok report =>
      refine (hfollows.startsNothing_trans_iff (.ask s₁ _)).mpr ⟨hpatch, ?_⟩
      exact Watched.KeepsFiles.startsNothing (.ask (s₁.ask_print_tree _) rfl)

/-! ### All commands -/

/-- The places that a command may change, given the files before and behind it. -/
def Place (command : Command) (config : Option String) (s : Watched) (t' : FileTree)
    (loc : Location) : Prop :=
  match command with
  | .check => False
  | .rules _ none => False
  | .rules _ (some path) => loc = destination s.world.cwd path
  | .docs _ cacheDir => ∃ c, ((load config : Watch _).run s).1 = .ok c ∧
      DocsPlace c cacheDir s.world.cwd s.world.tree t' loc
  | .init force => loc = destination s.world.cwd initPath ∧
      (force = false → s.world.tree.find? loc = none)

/-- The command writes nothing. -/
def OnlyReads : Command → Prop
  | .check => True
  | .rules _ none => True
  | _ => False

theorem keepsFiles_run {command : Command} (h : command.OnlyReads) (config : Option String)
    (s : Watched) : s.KeepsFiles ((command.run config : Watch _).run s).2 := by
  have hloaded := leavesFiles_load config s
  cases command with
  | check =>
    simp only [run, Watch.run_bind]
    cases ((load config : Watch _).run s).1 with
    | error e => exact hloaded
    | ok c => exact hloaded.trans (leavesFiles_runCheck c _)
  | rules format output =>
    cases output with
    | none =>
      simp only [run, Watch.run_bind]
      cases ((load config : Watch _).run s).1 with
      | error e => exact hloaded
      | ok c => exact hloaded.trans (leavesFiles_runRules c format _)
    | some path => exact h.elim
  | docs format cacheDir => exact h.elim
  | init force => exact h.elim

/-- The command is to run the formatter. -/
def Formats : Command → Prop
  | .docs true _ => True
  | _ => False

theorem ends_run (hs : s.Discreet) (config : Option String) (command : Command)
    (hnone : command.Formats → s.StartsNothing ((command.run config : Watch _).run s).2) :
    Ends s (command.Place config s ((command.run config : Watch _).run s).2.world.tree)
      ((command.run config : Watch _).run s).1 ((command.run config : Watch _).run s).2 := by
  have hloaded := leavesFiles_load config s
  cases command with
  | check =>
    have hreads : OnlyReads .check := trivial
    exact .of_keepsFiles (keepsFiles_run hreads config s)
  | init force => exact ends_runInit hs force
  | rules format output =>
    cases output with
    | none =>
      have hreads : OnlyReads (.rules format none) := trivial
      exact .of_keepsFiles (keepsFiles_run hreads config s)
    | some path =>
      simp only [run, Watch.run_bind]
      cases ((load config : Watch _).run s).1 with
      | error e => exact .of_keepsFiles hloaded
      | ok c =>
        have h := (ends_runRules c format path ((load config : Watch _).run s).2).after hloaded
        rwa [hloaded.cwd] at h
  | docs format cacheDir =>
    simp only [run, Watch.run_bind] at hnone ⊢
    cases hload : ((load config : Watch _).run s).1 with
    | error e => exact .of_keepsFiles hloaded
    | ok c =>
      rw [hload] at hnone
      have hunstarted : format = true → ((load config : Watch _).run s).2.StartsNothing
          ((runDocs c format cacheDir : Watch _).run ((load config : Watch _).run s).2).2 := by
        rintro rfl
        have hlater := Advances.relates.runDocs c true cacheDir ((load config : Watch _).run s).2
        exact (hloaded.startsNothing_iff hlater).mp (hnone trivial)
      have h := (ends_runDocs c format cacheDir hunstarted).after hloaded
      rw [hloaded.cwd, hloaded.tree] at h
      exact h.mono fun loc hloc => ⟨c, hload, hloc⟩

theorem startsNothing_run {command : Command} (hformats : command.Formats)
    (hlacks : s.world.Lacks Formatter.prettier.program) (config : Option String) :
    s.StartsNothing ((command.run config : Watch _).run s).2 := by
  have hloaded := leavesFiles_load config s
  match command, hformats with
  | .docs true cacheDir, _ =>
    simp only [run, Watch.run_bind]
    cases ((load config : Watch _).run s).1 with
    | error e => exact hloaded.startsNothing
    | ok c =>
      have hlater := Advances.relates.runDocs c true cacheDir ((load config : Watch _).run s).2
      obtain ⟨asked, hfollows, -⟩ := hloaded.later
      refine (hloaded.startsNothing_iff hlater).mpr ?_
      exact startsNothing_runDocs (hfollows.lacks hlacks) c true cacheDir

end Command

end FolderFlow
