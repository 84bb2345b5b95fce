import FolderFlow.Proofs.Mirror
import FolderFlow.Proofs.Patch
import FolderFlow.Proofs.SearchPath
import FolderFlow.Proofs.TreeFrame

/-!
# What a patch leaves behind

A patch goes through three stages: the docs file is brought up to date, the formatter is run on it,
the hash is recorded. `DocsPatcher.patch_frame` says what each of them asks of its host and what it
changes. A patch that fails does so in the first stage, after which nothing has changed. A patch
that succeeds changes the docs file, if it wrote it, and what belongs to the cache; all else is the
work of the formatter.
-/

namespace FolderFlow

open FileTree (ChangesWithin Made destination startOf)

/-! ## The docs file -/

/-- The calls by which a docs file is brought up to date, and what comes of them: a fault, or
whether the file was written. Nothing is asked for a tag that is refused. -/
inductive Docs.Rewrites {ε : Type} (compile : String → Except ε Unit) (path : String) (flow : Flow)
    (docs : DocsOptions) : Except (DocsError ε) Bool → List Event → Prop
  | refused {complaint : ε} (hcompile : compile docs.markerTag = .error complaint) :
      Rewrites compile path flow docs (.error (.pattern complaint)) []
  | unreadable (cause : SystemError) (hcompile : compile docs.markerTag = .ok ()) :
      Rewrites compile path flow docs (.error (.unreadable path cause))
        [⟨.readText path, .error cause⟩]
  | unmarked {current : String} {fault : MarkerError} (hcompile : compile docs.markerTag = .ok ())
      (h : Docs.patched flow docs current = .error fault) :
      Rewrites compile path flow docs (.error (.marker fault)) [⟨.readText path, .ok current⟩]
  | upToDate {current : String} (hcompile : compile docs.markerTag = .ok ())
      (h : Docs.patched flow docs current = .ok current) :
      Rewrites compile path flow docs (.ok false) [⟨.readText path, .ok current⟩]
  | unwritable {current text : String} (cause : SystemError)
      (hcompile : compile docs.markerTag = .ok ())
      (h : Docs.patched flow docs current = .ok text) (hne : text ≠ current) :
      Rewrites compile path flow docs (.error (.unwritable path cause))
        [⟨.readText path, .ok current⟩, ⟨.writeText path text, .error cause⟩]
  | written {current text : String} (message : String) (hcompile : compile docs.markerTag = .ok ())
      (h : Docs.patched flow docs current = .ok text) (hne : text ≠ current) :
      Rewrites compile path flow docs (.ok true)
        [⟨.readText path, .ok current⟩, ⟨.writeText path text, .ok ()⟩, ⟨.print message, ()⟩]

/-- The docs file holds the text that the flow asks for. It was written exactly where it held
another one, and no other file was. -/
structure Docs.BroughtUpToDate (path : String) (flow : Flow) (docs : DocsOptions) (written : Bool)
    (w : World) (t : FileTree) : Prop where
  text : ∃ current text, w.readText path = .ok current ∧ Docs.patched flow docs current = .ok text ∧
    t.readText w.cwd path = .ok text ∧ (written = true ↔ text ≠ current)
  frame : ChangesWithin (fun loc => written = true ∧ loc = destination w.cwd path) w.tree t

namespace DocsPatcher

variable {ε : Type} {p : DocsPatcher ε} {compile : String → Except ε Unit} {flow : Flow}
  {docs : DocsOptions} {path : String} {written : Bool} {s s' : Watched}

section Stages

variable {m : Type → Type} [Monad m] [Host m]

/-- The first stage of a patch, which knows of no formatter and no cache. -/
def rewrite (compile : String → Except ε Unit) (path : String) (flow : Flow) (docs : DocsOptions) :
    m (Except (DocsError ε) Bool) := do
  match compile docs.markerTag with
  | .error complaint => return .error (.pattern complaint)
  | .ok () =>
    match ← Host.readText path with
    | .error e => return .error (.unreadable path e)
    | .ok current =>
      match Docs.patched flow docs current with
      | .error fault => return .error (.marker fault)
      | .ok text =>
        match ← update path current text with
        | .error e => return .error (.unwritable path e)
        | .ok written => return .ok written

/-- The rest of a patch, of which a fault is the end. -/
def finish (p : DocsPatcher ε) (flow : Flow) (path : String) :
    Except (DocsError ε) Bool → m (Except (DocsError ε) PatchReport)
  | .error e => return .error e
  | .ok written => do return .ok (← p.conclude flow path written)

theorem patch_eq [LawfulMonad m] (p : DocsPatcher ε) (flow : Flow) (docs : DocsOptions) :
    (p.patch flow docs : m _) =
      rewrite p.compile (p.docsPath docs) flow docs >>= p.finish flow (p.docsPath docs) := by
  simp only [patch, rewrite, docsPath]
  cases p.compile docs.markerTag with
  | error complaint => simp only [pure_bind, finish]
  | ok =>
    simp only [bind_assoc]
    refine bind_congr fun read => ?_
    cases read with
    | error e => simp only [pure_bind, finish]
    | ok current =>
      dsimp only
      cases Docs.patched flow docs current with
      | error fault => simp only [pure_bind, finish]
      | ok text =>
        simp only [bind_assoc]
        refine bind_congr fun updated => ?_
        cases updated with
        | error e => simp only [pure_bind, finish]
        | ok written => simp only [pure_bind, finish]

/-- Runs a formatter on the absolute path of a file. -/
def formatAt (f : Formatter) (path target : String) : m Bool := do
  match ← f.run target with
  | .ok () => return true
  | .error e =>
    Host.log .warn ("Formatting " ++ path ++ " skipped: " ++ e.message)
    return false

end Stages

theorem run_patch (p : DocsPatcher ε) (flow : Flow) (docs : DocsOptions) (s : Watched) :
    (p.patch flow docs : Watch _).run s =
      (p.finish flow (p.docsPath docs)
        ((rewrite p.compile (p.docsPath docs) flow docs : Watch _).run s).1 : Watch _).run
        ((rewrite p.compile (p.docsPath docs) flow docs : Watch _).run s).2 := by
  rw [patch_eq, Watch.run_bind]

/-- A text that is there is left alone, and any other one is written, to some use or to none. -/
theorem update_cases {current text : String} {result : Except SystemError Bool}
    (h : (update path current text : Watch _).run s = (result, s')) :
    (text = current ∧ result = .ok false ∧ s' = s) ∨
    (text ≠ current ∧ ∃ e, (s.ask (.writeText path text)).1 = .error e ∧ result = .error e ∧
      s' = (s.ask (.writeText path text)).2) ∨
    (text ≠ current ∧ ∃ message, (s.ask (.writeText path text)).1 = .ok () ∧ result = .ok true ∧
      s' = ((s.ask (.writeText path text)).2.ask (.print message)).2) := by
  unfold update at h
  split at h
  · rename_i hsame
    obtain ⟨rfl, rfl⟩ := Prod.mk.inj h
    exact Or.inl ⟨hsame, rfl, rfl⟩
  · rename_i hne
    simp only [Watch.run_bind, Watch.run_writeText] at h
    cases hwrite : (s.ask (.writeText path text)).1 with
    | error e =>
      simp only [hwrite, Watch.run_pure] at h
      obtain ⟨rfl, rfl⟩ := Prod.mk.inj h
      exact Or.inr (Or.inl ⟨hne, e, rfl, rfl, rfl⟩)
    | ok =>
      simp only [hwrite, Watch.run_bind, Watch.run_log, Watch.run_pure] at h
      obtain ⟨rfl, rfl⟩ := Prod.mk.inj h
      exact Or.inr (Or.inr ⟨hne, _, rfl, rfl, rfl⟩)

/-- A text that was written stands in its file, and no other file has changed. -/
theorem broughtUpToDate_of_writeText {current text : String} {w w' : World}
    (hread : w.readText path = .ok current) (hpatched : Docs.patched flow docs current = .ok text)
    (hne : text ≠ current) (hwrite : w.writeText path text = (.ok (), w')) :
    Docs.BroughtUpToDate path flow docs true w w'.tree := by
  obtain ⟨tree, hwritten, rfl⟩ := World.exists_of_writeText hwrite
  refine ⟨⟨current, text, hread, hpatched, FileTree.readText_of_writeBytes hwritten, ?_⟩, ?_⟩
  · exact iff_of_true rfl hne
  · exact (FileTree.changesWithin_writeBytes hwritten).mono fun loc hloc => ⟨rfl, hloc⟩

/-- A text that was read is left alone or another one is written, and a fault changes nothing. -/
theorem rewrites_of_update {current text : String} {updated : Except SystemError Bool}
    (hcompile : compile docs.markerTag = .ok ()) (hread : s.world.readText path = .ok current)
    (hpatched : Docs.patched flow docs current = .ok text)
    (h : (update path current text : Watch _).run s = (updated, s')) :
    ∃ later, s.Follows later s' ∧
      Docs.Rewrites compile path flow docs (updated.mapError (.unwritable path))
        (⟨.readText path, .ok current⟩ :: later) ∧
      match updated with
      | .error _ => s'.world = s.world
      | .ok written => Docs.BroughtUpToDate path flow docs written s.world s'.world.tree := by
  rcases update_cases h with ⟨rfl, rfl, rfl⟩ | ⟨hne, e, hwrite, rfl, rfl⟩ |
    ⟨hne, message, hwrite, rfl, rfl⟩
  · refine ⟨[], .refl _, .upToDate hcompile hpatched, ⟨text, text, hread, hpatched, hread, ?_⟩, ?_⟩
    · simp
    · exact ChangesWithin.refl _ _
  · have hasked := Watched.Follows.ask s (.writeText path text)
    rw [hwrite] at hasked
    exact ⟨_, hasked, .unwritable e hcompile hpatched hne,
      Watched.ask_writeText_world_of_error hwrite⟩
  · have hasked := (Watched.Follows.ask s (.writeText path text)).trans (.ask _ (.print message))
    rw [hwrite] at hasked
    refine ⟨_, hasked, .written message hcompile hpatched hne, ?_⟩
    rw [Watched.ask_print_tree]
    exact broughtUpToDate_of_writeText hread hpatched hne (Watched.writeText_of_ask hwrite)

/-- The first stage ends with a fault, and then nothing has changed, or with the docs file brought
up to date. -/
theorem rewrite_cases {result : Except (DocsError ε) Bool}
    (h : (rewrite compile path flow docs : Watch _).run s = (result, s')) :
    ∃ own, s.Follows own s' ∧ Docs.Rewrites compile path flow docs result own ∧
      match result with
      | .error _ => s'.world = s.world
      | .ok written => Docs.BroughtUpToDate path flow docs written s.world s'.world.tree := by
  unfold rewrite at h
  cases hcompile : compile docs.markerTag with
  | error complaint =>
    rw [hcompile] at h
    obtain ⟨rfl, rfl⟩ := Prod.mk.inj h
    exact ⟨[], .refl s, .refused hcompile, rfl⟩
  | ok =>
    simp only [hcompile, Watch.run_bind, Watch.run_readText] at h
    have hasked := Watched.Follows.ask s (.readText path)
    have hworld := s.ask_readText_world path
    cases hread : (s.ask (.readText path)).1 with
    | error e =>
      rw [hread] at h hasked
      obtain ⟨rfl, rfl⟩ := Prod.mk.inj h
      exact ⟨_, hasked, .unreadable e hcompile, hworld⟩
    | ok current =>
      rw [hread] at h hasked
      have hcurrent := Watched.readText_of_ask hread
      generalize (s.ask (.readText path)).2 = s₁ at h hasked hworld
      rw [← hworld] at hcurrent ⊢
      cases hpatched : Docs.patched flow docs current with
      | error fault =>
        simp only [hpatched] at h
        obtain ⟨rfl, rfl⟩ := Prod.mk.inj h
        exact ⟨_, hasked, .unmarked hcompile hpatched, rfl⟩
      | ok text =>
        simp only [hpatched, Watch.run_bind] at h
        generalize hupdate : (update path current text : Watch _).run s₁ = outcome at h
        obtain ⟨updated, s₂⟩ := outcome
        obtain ⟨later, hlater, hrewrites, hends⟩ :=
          rewrites_of_update hcompile hcurrent hpatched hupdate
        cases updated with
        | error e =>
          obtain ⟨rfl, rfl⟩ := Prod.mk.inj h
          exact ⟨_, hasked.trans hlater, hrewrites, hends⟩
        | ok written =>
          obtain ⟨rfl, rfl⟩ := Prod.mk.inj h
          exact ⟨_, hasked.trans hlater, hrewrites, hends⟩

/-! ## The formatter -/

/-- What is asked for the sake of the formatter. -/
inductive FormatCall (p : DocsPatcher ε) (path : String) : Call → Prop
  | realPath : FormatCall p path (.realPath path)
  | launch {f : Formatter} (target : String) (h : p.formatter = some f) :
      FormatCall p path (.launch (f.launchOn target))
  | print (text : String) : FormatCall p path (.print text)

/-- The formatter was started on the files `t` and left the files `t'` behind. -/
def FormatterRan (p : DocsPatcher ε) (asked : List Event) (w : World) (t t' : FileTree) : Prop :=
  ∃ f target exit program dir, p.formatter = some f ∧
    ⟨.launch (f.launchOn target), .ok exit⟩ ∈ asked ∧
    { w with tree := t }.findProgram (f.launchOn target) = .ok (program, dir) ∧
    program.run f.program (f.args ++ [target]) dir t = (t', exit)

/-- The formatter was started and ended well. -/
def FormatterSucceeded (p : DocsPatcher ε) (asked : List Event) : Prop :=
  ∃ f target exit, p.formatter = some f ∧ ⟨.launch (f.launchOn target), .ok exit⟩ ∈ asked ∧
    exit.status.isSuccess = true

theorem FormatterRan.mono {asked asked' : List Event} {w : World} {t t' : FileTree}
    (h : p.FormatterRan asked w t t') (hsub : asked ⊆ asked') : p.FormatterRan asked' w t t' := by
  obtain ⟨f, target, exit, program, dir, hf, hmem, hrun⟩ := h
  exact ⟨f, target, exit, program, dir, hf, hsub hmem, hrun⟩

theorem FormatterSucceeded.mono {asked asked' : List Event} (h : p.FormatterSucceeded asked)
    (hsub : asked ⊆ asked') : p.FormatterSucceeded asked' := by
  obtain ⟨f, target, exit, hf, hmem, hsuccess⟩ := h
  exact ⟨f, target, exit, hf, hsub hmem, hsuccess⟩

/-- No program was started, and the files are as they were, or the formatter ran. -/
def FormatterEnds (p : DocsPatcher ε) (asked : List Event) (w : World) (t t' : FileTree) : Prop :=
  (∀ event ∈ asked, event.exit? = none) ∧ t' = t ∨ p.FormatterRan asked w t t'

/-- What comes of the second stage, and what was asked in it. -/
structure Formats (p : DocsPatcher ε) (path : String) (s : Watched) (formatted : Bool)
    (formatting : List Event) (s' : Watched) : Prop where
  follows : s.Follows formatting s'
  calls : ∀ event ∈ formatting, p.FormatCall path event.call
  ends : p.FormatterEnds formatting s.world s.world.tree s'.world.tree
  success : formatted = true → p.FormatterSucceeded formatting

theorem Formats.none (p : DocsPatcher ε) (path : String) (s : Watched) :
    p.Formats path s false [] s :=
  ⟨.refl s, by simp, Or.inl ⟨by simp, rfl⟩, by simp⟩

/-- Asking for the absolute path first changes nothing. -/
theorem Formats.after_realPath {formatted : Bool} {formatting : List Event}
    (h : p.Formats path (s.ask (.realPath path)).2 formatted formatting s') :
    p.Formats path s formatted
      (⟨.realPath path, (s.ask (.realPath path)).1⟩ :: formatting) s' := by
  have hends := h.ends
  rw [s.ask_realPath_world path] at hends
  refine ⟨(Watched.Follows.ask s _).trans h.follows, ?_, ?_, fun hformatted => ?_⟩
  · simpa using ⟨FormatCall.realPath, h.calls⟩
  · refine hends.imp (fun hnone => ?_) fun hran => hran.mono (List.subset_cons_self _ _)
    exact ⟨List.forall_mem_cons.mpr ⟨rfl, hnone.1⟩, hnone.2⟩
  · exact (h.success hformatted).mono (List.subset_cons_self _ _)

theorem exists_run_format {f : Formatter} (hf : p.formatter = some f) (path : String)
    (s : Watched) : ∃ target, (p.format path : Watch _).run s =
      (formatAt f path target : Watch _).run (s.ask (.realPath path)).2 := by
  simp only [format, hf, Watch.run_bind, Watch.run_realPath]
  cases (s.ask (.realPath path)).1 with
  | ok target => exact ⟨target, rfl⟩
  | error e => exact ⟨path, rfl⟩

/-- A program that ended has left the files as they now are. -/
theorem formatterRan_of_ask {f : Formatter} {target : String} {exit : Exit}
    {formatting : List Event} (hf : p.formatter = some f)
    (hlaunch : (s.ask (.launch (f.launchOn target))).1 = .ok exit)
    (hmem : ⟨.launch (f.launchOn target), .ok exit⟩ ∈ formatting) :
    p.FormatterRan formatting s.world s.world.tree
      (s.ask (.launch (f.launchOn target))).2.world.tree := by
  obtain ⟨program, dir, hfound, hrun⟩ := World.run_of_launch (Watched.launch_of_ask hlaunch)
  exact ⟨f, target, exit, program, dir, hf, hmem, hfound, hrun⟩

theorem formats_of_formatAt {f : Formatter} {target : String} {formatted : Bool}
    (hf : p.formatter = some f) (h : (formatAt f path target : Watch _).run s = (formatted, s')) :
    ∃ formatting, p.Formats path s formatted formatting s' := by
  simp only [formatAt, Formatter.run, Watch.run_bind, Watch.run_launch, Watch.run_pure] at h
  have hasked := Watched.Follows.ask s (.launch (f.launchOn target))
  have hcall : p.FormatCall path (.launch (f.launchOn target)) := .launch target hf
  cases hlaunch : (s.ask (.launch (f.launchOn target))).1 with
  | error cause =>
    rw [hlaunch] at hasked
    simp only [hlaunch, Formatter.judge, Watch.run_bind, Watch.run_log, Watch.run_pure] at h
    obtain ⟨rfl, rfl⟩ := Prod.mk.inj h
    refine ⟨_, hasked.trans (.ask _ _), ?_, Or.inl ⟨?_, ?_⟩, by simp⟩
    · simpa using ⟨hcall, FormatCall.print _⟩
    · simp [Event.exit?]
    · rw [Watched.ask_print_tree, Watched.ask_launch_world_of_error hlaunch]
  | ok exit =>
    rw [hlaunch] at hasked
    by_cases hsuccess : exit.status.isSuccess = true
    · simp only [hlaunch, Formatter.judge, hsuccess, if_true, Watch.run_pure] at h
      obtain ⟨rfl, rfl⟩ := Prod.mk.inj h
      refine ⟨_, hasked, by simpa using hcall, Or.inr ?_, fun _ => ?_⟩
      · exact formatterRan_of_ask hf hlaunch List.mem_cons_self
      · exact ⟨f, target, exit, hf, List.mem_cons_self, hsuccess⟩
    · simp only [hlaunch, Formatter.judge, if_neg hsuccess, Watch.run_bind, Watch.run_log,
        Watch.run_pure] at h
      obtain ⟨rfl, rfl⟩ := Prod.mk.inj h
      refine ⟨_, hasked.trans (.ask _ _), ?_, Or.inr ?_, by simp⟩
      · simpa using ⟨hcall, FormatCall.print _⟩
      · rw [Watched.ask_print_tree]
        exact formatterRan_of_ask hf hlaunch List.mem_cons_self

theorem formats_of_format {formatted : Bool}
    (h : (p.format path : Watch _).run s = (formatted, s')) :
    ∃ formatting, p.Formats path s formatted formatting s' := by
  cases hf : p.formatter with
  | none =>
    simp only [format, hf, Watch.run_pure] at h
    obtain ⟨rfl, rfl⟩ := Prod.mk.inj h
    exact ⟨[], .none p path s⟩
  | some f =>
    obtain ⟨target, htarget⟩ := exists_run_format hf path s
    obtain ⟨formatting, hformats⟩ := formats_of_formatAt hf (htarget.symm.trans h)
    exact ⟨_, hformats.after_realPath⟩

end DocsPatcher

/-! ## The cache -/

namespace Watched

variable {s : Watched}

theorem changesWithin_ask_writeText (s : Watched) (path text : String) :
    ChangesWithin (· = destination s.world.cwd path) s.world.tree
      (s.ask (.writeText path text)).2.world.tree := by
  cases hwrite : (s.ask (.writeText path text)).1 with
  | error e =>
    rw [ask_writeText_world_of_error hwrite]
    exact .refl _ _
  | ok =>
    obtain ⟨tree, hwritten, hworld⟩ := World.exists_of_writeText (writeText_of_ask hwrite)
    rw [hworld]
    exact FileTree.changesWithin_writeBytes hwritten

theorem made_of_ask (s : Watched) (path : String) :
    ChangesWithin (Made (startOf s.world.cwd path) (Path.steps path) s.world.tree
      (s.ask (.createDirs path)).2.world.tree) s.world.tree
      (s.ask (.createDirs path)).2.world.tree := by
  rcases s.ask_cases (.createDirs path) with ⟨r, -, hworld⟩ | ⟨-, hworld⟩
  · rw [hworld]
    exact FileTree.made_of_makeDirs.mono fun loc hmade =>
      hmade.trans_keeps (List.drop_suffix _ _) (FileTree.Keeps.refl _)
  · rw [hworld]
    exact FileTree.made_of_createDirs

end Watched

namespace DirCache

variable {cache : DirCache} {hash : String} {s s' : Watched}

/-- What is asked when a hash is recorded. -/
inductive RecordCall (cache : DirCache) (hash : String) : Call → Prop
  | readText : RecordCall cache hash (.readText (cache.entryPath hashKey))
  | createDirs : RecordCall cache hash (.createDirs cache.dir)
  | writeText : RecordCall cache hash (.writeText (cache.entryPath hashKey) hash)
  | print (text : String) : RecordCall cache hash (.print text)

/-- The place of the entry, and those of the directories of the cache that were made. -/
def Claims (cache : DirCache) (cwd : Location) (t t' : FileTree) (loc : Location) : Prop :=
  loc = cache.entryLocation cwd hashKey ∨
    Made (startOf cwd cache.dir) (Path.steps cache.dir) t t' loc

/-- What was asked when a hash was recorded, and what it changed. -/
structure Records (cache : DirCache) (hash : String) (s : Watched) (recording : List Event)
    (s' : Watched) : Prop where
  follows : s.Follows recording s'
  calls : ∀ event ∈ recording, cache.RecordCall hash event.call
  tree : ChangesWithin (cache.Claims s.world.cwd s.world.tree s'.world.tree) s.world.tree
    s'.world.tree

theorem records_readText (cache : DirCache) (hash : String) (s : Watched) :
    cache.Records hash s
      [⟨.readText (cache.entryPath hashKey), (s.ask (.readText (cache.entryPath hashKey))).1⟩]
      (s.ask (.readText (cache.entryPath hashKey))).2 := by
  refine ⟨.ask s _, by simpa using RecordCall.readText, ?_⟩
  rw [Watched.ask_readText_world]
  exact .refl _ _

/-- More may be asked as long as the files stay as they are. -/
theorem Records.before {s₁ : Watched} {recording later : List Event}
    (h : cache.Records hash s recording s₁) (hfollows : s₁.Follows later s')
    (hcalls : ∀ event ∈ later, cache.RecordCall hash event.call)
    (htree : s'.world.tree = s₁.world.tree) : cache.Records hash s (recording ++ later) s' := by
  refine ⟨h.follows.trans hfollows, fun event hevent => ?_, htree ▸ h.tree⟩
  rcases List.mem_append.mp hevent with hevent | hevent
  · exact h.calls event hevent
  · exact hcalls event hevent

theorem Records.print {recording : List Event} (h : cache.Records hash s recording s')
    (text : String) :
    cache.Records hash s (recording ++ [⟨.print text, (s'.ask (.print text)).1⟩])
      (s'.ask (.print text)).2 :=
  h.before (.ask s' _) (by simpa using RecordCall.print text) (s'.ask_print_tree text)

theorem Records.createDirs {recording : List Event} (h : cache.Records hash s recording s')
    (htree : s'.world.tree = s.world.tree) :
    cache.Records hash s
      (recording ++ [⟨.createDirs cache.dir, (s'.ask (.createDirs cache.dir)).1⟩])
      (s'.ask (.createDirs cache.dir)).2 := by
  refine ⟨h.follows.trans (.ask s' _), fun event hevent => ?_, ?_⟩
  · rcases List.mem_append.mp hevent with hevent | hevent
    · exact h.calls event hevent
    · rw [List.mem_singleton.mp hevent]
      exact .createDirs
  · have hmade := s'.made_of_ask cache.dir
    rw [h.follows.cwd, htree] at hmade
    exact hmade.mono fun loc hloc => Or.inr hloc

/-- A directory that was made is not the file that is written behind it. -/
theorem Records.writeText {recording : List Event} (h : cache.Records hash s recording s') :
    cache.Records hash s
      (recording ++ [⟨.writeText (cache.entryPath hashKey) hash,
        (s'.ask (.writeText (cache.entryPath hashKey) hash)).1⟩])
      (s'.ask (.writeText (cache.entryPath hashKey) hash)).2 := by
  refine ⟨h.follows.trans (.ask s' _), fun event hevent => ?_, fun loc hne => ?_⟩
  · rcases List.mem_append.mp hevent with hevent | hevent
    · exact h.calls event hevent
    · rw [List.mem_singleton.mp hevent]
      exact .writeText
  · have hwritten := s'.changesWithin_ask_writeText (cache.entryPath hashKey) hash loc
    by_cases hsame : (s'.ask (.writeText (cache.entryPath hashKey) hash)).2.world.tree.find? loc =
        s'.world.tree.find? loc
    · refine (h.tree loc (hsame ▸ hne)).imp_right fun hmade => ?_
      exact ⟨hmade.onWay, hmade.missing, hsame.trans hmade.made⟩
    · left
      rw [hwritten hsame, h.follows.cwd]
      rfl

theorem watch_get (cache : DirCache) (key : String) (s : Watched) :
    (cache.get key : Watch _).run s =
      ((s.ask (.readText (cache.entryPath key))).1.toOption.map Text.trim,
        (s.ask (.readText (cache.entryPath key))).2) := by
  simp only [get, Watch.run_bind, Watch.run_readText]
  cases (s.ask (.readText (cache.entryPath key))).1 <;> rfl

/-- An entry is written once its directory is there. -/
theorem put_cases {key value : String} {result : Except SystemError Unit}
    (h : (cache.put key value : Watch _).run s = (result, s')) :
    ((s.ask (.createDirs cache.dir)).1 = result ∧ result ≠ .ok () ∧
      s' = (s.ask (.createDirs cache.dir)).2) ∨
    ((s.ask (.createDirs cache.dir)).1 = .ok () ∧
      (s.ask (.createDirs cache.dir)).2.ask (.writeText (cache.entryPath key) value) =
        (result, s')) := by
  simp only [put, Watch.run_bind, Watch.run_createDirs] at h
  cases hmade : (s.ask (.createDirs cache.dir)).1 with
  | error e =>
    simp only [hmade, Watch.run_pure] at h
    obtain ⟨rfl, rfl⟩ := Prod.mk.inj h
    exact Or.inl ⟨rfl, by simp, rfl⟩
  | ok =>
    simp only [hmade, Watch.run_writeText] at h
    exact Or.inr ⟨rfl, h⟩

/-- A hash is written unless it is held. -/
theorem record_cases {status : CacheStatus}
    (h : (cache.record hash : Watch _).run s = (status, s')) :
    (((cache.get hashKey : Watch _).run s).1 = some hash ∧ status = .unchanged ∧
      s' = ((cache.get hashKey : Watch _).run s).2) ∨
    (((cache.get hashKey : Watch _).run s).1 ≠ some hash ∧
      ∃ result s₁, (cache.put hashKey hash : Watch _).run
        ((cache.get hashKey : Watch _).run s).2 = (result, s₁) ∧
        ((result = .ok () ∧ status = .updated ∧ s' = s₁) ∨
          (result ≠ .ok () ∧ status = .writeFailed ∧ ∃ text, s' = (s₁.ask (.print text)).2))) := by
  simp only [record, Watch.run_bind] at h
  split at h
  · rename_i hheld
    obtain ⟨rfl, rfl⟩ := Prod.mk.inj h
    exact Or.inl ⟨by simpa using hheld, rfl, rfl⟩
  · rename_i hheld
    refine Or.inr ⟨by simpa using hheld, ?_⟩
    simp only [Watch.run_bind] at h
    generalize (cache.put hashKey hash : Watch _).run ((cache.get hashKey : Watch _).run s).2 =
      outcome at h ⊢
    obtain ⟨result, s₁⟩ := outcome
    refine ⟨result, s₁, rfl, ?_⟩
    cases result with
    | error e =>
      simp only [Watch.run_bind, Watch.run_log, Watch.run_pure] at h
      obtain ⟨rfl, rfl⟩ := Prod.mk.inj h
      exact Or.inr ⟨by simp, rfl, _, rfl⟩
    | ok =>
      obtain ⟨rfl, rfl⟩ := Prod.mk.inj h
      exact Or.inl ⟨rfl, rfl, rfl⟩

theorem exists_records {status : CacheStatus}
    (h : (cache.record hash : Watch _).run s = (status, s')) :
    ∃ recording, cache.Records hash s recording s' := by
  have hread := cache.records_readText hash s
  have hworld := s.ask_readText_world (cache.entryPath hashKey)
  have hput : ∀ {result s₁}, (cache.put hashKey hash : Watch _).run
      ((cache.get hashKey : Watch _).run s).2 = (result, s₁) →
      ∃ recording, cache.Records hash s recording s₁ := by
    intro result s₁ hput
    rw [watch_get] at hput
    rcases put_cases hput with ⟨-, -, rfl⟩ | ⟨-, hwrite⟩
    · exact ⟨_, hread.createDirs (congrArg World.tree hworld)⟩
    · obtain rfl := (congrArg Prod.snd hwrite).symm
      exact ⟨_, (hread.createDirs (congrArg World.tree hworld)).writeText⟩
  rcases record_cases h with ⟨-, -, rfl⟩ | ⟨-, result, s₁, hrun, ⟨-, -, rfl⟩ | ⟨-, -, text, rfl⟩⟩
  · rw [watch_get]
    exact ⟨_, hread⟩
  · exact hput hrun
  · obtain ⟨recording, hrecords⟩ := hput hrun
    exact ⟨_, hrecords.print text⟩

end DirCache

/-! ## The whole patch -/

namespace DocsPatcher

variable {ε : Type} {p : DocsPatcher ε} {flow : Flow} {docs : DocsOptions} {path : String}
  {written : Bool} {s s' : Watched} {report : PatchReport}

/-- The formatter is run after a text was written, and the hash is recorded behind it. -/
theorem conclude_cases (h : (p.conclude flow path written : Watch _).run s = (report, s')) :
    ∃ s₁, (p.record flow.hash : Watch _).run s₁ = (report.cache, s') ∧
      report.path = path ∧ report.written = written ∧ report.hash = flow.hash ∧
      ((written = true ∧ (p.format path : Watch _).run s = (report.formatted, s₁)) ∨
        (written = false ∧ report.formatted = false ∧ s₁ = s)) := by
  cases written with
  | true =>
    simp only [conclude, if_true, Watch.run_bind, Watch.run_pure] at h
    obtain ⟨rfl, rfl⟩ := Prod.mk.inj h
    exact ⟨_, rfl, rfl, rfl, rfl, Or.inl ⟨rfl, rfl⟩⟩
  | false =>
    simp only [conclude, Bool.false_eq_true, if_false, Watch.run_bind, Watch.run_pure] at h
    obtain ⟨rfl, rfl⟩ := Prod.mk.inj h
    exact ⟨_, rfl, rfl, rfl, rfl, Or.inr ⟨rfl, rfl, rfl⟩⟩

theorem record_cases {hash : String} {status : CacheStatus}
    (h : (p.record hash : Watch _).run s = (status, s')) :
    (p.cache = none ∧ status = .disabled ∧ s' = s) ∨
      ∃ cache, p.cache = some cache ∧ (cache.record hash : Watch _).run s = (status, s') := by
  unfold record at h
  cases hcache : p.cache with
  | none =>
    rw [hcache] at h
    obtain ⟨rfl, rfl⟩ := Prod.mk.inj h
    exact Or.inl ⟨rfl, rfl, rfl⟩
  | some cache =>
    rw [hcache] at h
    exact Or.inr ⟨cache, rfl, h⟩

/-- What is asked for the sake of the cache, if there is one. -/
def RecordCall (p : DocsPatcher ε) (hash : String) (call : Call) : Prop :=
  ∃ cache, p.cache = some cache ∧ cache.RecordCall hash call

/-- The places that belong to the cache, if there is one. -/
def CachePlace (p : DocsPatcher ε) (cwd : Location) (t t' : FileTree) (loc : Location) : Prop :=
  ∃ cache, p.cache = some cache ∧ cache.Claims cwd t t' loc

/-- A patch that failed has asked for the docs file and nothing else, and has changed nothing. -/
structure Fails (p : DocsPatcher ε) (flow : Flow) (docs : DocsOptions) (s : Watched)
    (error : DocsError ε) (s' : Watched) : Prop where
  asked : ∃ own, s'.events = s.events ++ own ∧
    Docs.Rewrites p.compile (p.docsPath docs) flow docs (.error error) own
  world : s'.world = s.world

/-- What a patch that succeeded has asked and changed, stage by stage. The files are `rewritten`
once the docs file is up to date and `formatted` once the formatter has run, if it has. -/
structure Succeeds (p : DocsPatcher ε) (flow : Flow) (docs : DocsOptions) (s : Watched)
    (own formatting recording : List Event) (rewritten formatted : FileTree)
    (report : PatchReport) (s' : Watched) : Prop where
  events : s'.events = s.events ++ own ++ formatting ++ recording
  ownCalls : Docs.Rewrites p.compile (p.docsPath docs) flow docs (.ok report.written) own
  formatCalls : ∀ event ∈ formatting, p.FormatCall (p.docsPath docs) event.call
  recordCalls : ∀ event ∈ recording, p.RecordCall flow.hash event.call
  /-- The formatter is left alone unless the docs file was written. -/
  unformatted : report.written = false → formatting = []
  docsFile : Docs.BroughtUpToDate (p.docsPath docs) flow docs report.written s.world rewritten
  formatter : p.FormatterEnds formatting s.world rewritten formatted
  cacheFiles : ChangesWithin (p.CachePlace s.world.cwd formatted s'.world.tree) formatted
    s'.world.tree
  reportPath : report.path = p.docsPath docs
  reportHash : report.hash = flow.hash
  success : report.formatted = true → report.written = true ∧ p.FormatterSucceeded formatting

/-- What has been asked before is no matter for where the formatter is found. -/
theorem FormatterRan.of_follows {asked : List Event} {t t' : FileTree} {own : List Event}
    (h : p.FormatterRan asked s'.world t t') (hfollows : s.Follows own s') :
    p.FormatterRan asked s.world t t' := by
  obtain ⟨f, target, exit, program, dir, hf, hmem, hfound, hrun⟩ := h
  refine ⟨f, target, exit, program, dir, hf, hmem, ?_, hrun⟩
  rw [hfollows.rest] at hfound
  exact (s.world.findProgram_withOutput t s'.world.output _).symm.trans hfound

theorem exists_recordCalls {hash : String} {status : CacheStatus}
    (h : (p.record hash : Watch _).run s = (status, s')) :
    ∃ recording, s.Follows recording s' ∧ (∀ event ∈ recording, p.RecordCall hash event.call) ∧
      ChangesWithin (p.CachePlace s.world.cwd s.world.tree s'.world.tree) s.world.tree
        s'.world.tree := by
  rcases record_cases h with ⟨-, -, rfl⟩ | ⟨cache, hcache, hrecord⟩
  · exact ⟨[], .refl _, by simp, .refl _ _⟩
  · obtain ⟨recording, hrecords⟩ := DirCache.exists_records hrecord
    refine ⟨recording, hrecords.follows, fun event hevent => ?_, ?_⟩
    · exact ⟨cache, hcache, hrecords.calls event hevent⟩
    · exact hrecords.tree.mono fun loc hloc => ⟨cache, hcache, hloc⟩

/-- The second stage is skipped unless the docs file was written. -/
theorem exists_formatCalls (h : (p.conclude flow path written : Watch _).run s = (report, s')) :
    ∃ formatting s₁, p.Formats path s report.formatted formatting s₁ ∧
      (p.record flow.hash : Watch _).run s₁ = (report.cache, s') ∧
      (report.formatted = true → written = true) ∧ (written = false → formatting = []) := by
  obtain ⟨s₁, hrecord, -, -, -, ⟨rfl, hformat⟩ | ⟨rfl, hformatted, rfl⟩⟩ := conclude_cases h
  · obtain ⟨formatting, hformats⟩ := formats_of_format hformat
    exact ⟨formatting, s₁, hformats, hrecord, fun _ => rfl, by simp⟩
  · rw [hformatted]
    exact ⟨[], s₁, .none p path s₁, hrecord, by simp, fun _ => rfl⟩

/-- A patch that brought the docs file up to date succeeds. -/
theorem succeeds_of_conclude {own : List Event} {s₁ : Watched} (hfollows : s.Follows own s₁)
    (hown : Docs.Rewrites p.compile (p.docsPath docs) flow docs (.ok written) own)
    (htree : Docs.BroughtUpToDate (p.docsPath docs) flow docs written s.world s₁.world.tree)
    (h : (p.conclude flow (p.docsPath docs) written : Watch _).run s₁ = (report, s')) :
    ∃ own formatting recording rewritten formatted,
      p.Succeeds flow docs s own formatting recording rewritten formatted report s' := by
  obtain ⟨formatting, s₂, hformats, hrecord, hsuccess, hunformatted⟩ := exists_formatCalls h
  obtain ⟨recording, hrecording, hcalls, hcache⟩ := exists_recordCalls hrecord
  obtain ⟨-, -, hpath, rfl, hhash, -⟩ := conclude_cases h
  refine ⟨own, formatting, recording, s₁.world.tree, s₂.world.tree, ?_⟩
  have hcwd : s₂.world.cwd = s.world.cwd := hformats.follows.cwd.trans hfollows.cwd
  refine
    { events := ((hfollows.trans hformats.follows).trans hrecording).events.trans ?_
      ownCalls := hown
      formatCalls := hformats.calls
      recordCalls := hcalls
      unformatted := hunformatted
      docsFile := htree
      formatter := hformats.ends.imp id fun hran => hran.of_follows hfollows
      cacheFiles := hcwd ▸ hcache
      reportPath := hpath
      reportHash := hhash
      success := fun h => ⟨hsuccess h, hformats.success h⟩ }
  simp only [List.append_assoc]

theorem patch_cases (p : DocsPatcher ε) (flow : Flow) (docs : DocsOptions) (s : Watched) :
    match (p.patch flow docs : Watch _).run s with
    | (.error error, s') => p.Fails flow docs s error s'
    | (.ok report, s') => ∃ own formatting recording rewritten formatted,
        p.Succeeds flow docs s own formatting recording rewritten formatted report s' := by
  rw [run_patch]
  generalize hrewrite : (rewrite p.compile (p.docsPath docs) flow docs : Watch _).run s = outcome
  obtain ⟨result, s₁⟩ := outcome
  obtain ⟨own, hfollows, hown, htree⟩ := rewrite_cases hrewrite
  cases result with
  | error error => exact ⟨⟨own, hfollows.events, hown⟩, htree⟩
  | ok written =>
    simp only [finish, Watch.run_bind, Watch.run_pure]
    generalize hconclude : (p.conclude flow (p.docsPath docs) written : Watch _).run s₁ = outcome
    obtain ⟨report, s'⟩ := outcome
    exact succeeds_of_conclude hfollows hown htree hconclude

/-- **The frame of a patch.** A patch that fails has changed nothing, has started no formatter and
has left the cache alone. One that succeeds has started the formatter only if it wrote the docs
file. Apart from what the formatter did it has changed the docs file, if it wrote it, the entry of
the hash and missing directories of the cache. Where nothing is refused, all this holds of the patch
in a sandbox, which is the same.

The files may be any tree of files and directories. There are no links in it, no permissions and no
special files; what a system refuses for their sake is a call that is refused here. -/
theorem patch_frame (p : DocsPatcher ε) (flow : Flow) (docs : DocsOptions) (s : Watched) :
    (match (p.patch flow docs : Watch _).run s with
      | (.error error, s') => p.Fails flow docs s error s'
      | (.ok report, s') => ∃ own formatting recording rewritten formatted,
          p.Succeeds flow docs s own formatting recording rewritten formatted report s') ∧
    (s.Grants → (p.patch flow docs : Sandbox _).run s.world =
      (((p.patch flow docs : Watch _).run s).1,
        ((p.patch flow docs : Watch _).run s).2.world)) := by
  refine ⟨p.patch_cases flow docs s, fun hgrants => ?_⟩
  obtain ⟨hresult, hworld, -⟩ := p.mirrors_patch flow docs s hgrants
  exact Prod.ext hresult.symm hworld.symm

end DocsPatcher

end FolderFlow
