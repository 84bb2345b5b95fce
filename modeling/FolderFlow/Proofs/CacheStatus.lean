import FolderFlow.Proofs.PatchFrame

/-!
# What the status of a cache tells

Any number of patches share a cache. Each of them that succeeds tells whether its flow is the one
that the last successful patch before it has recorded (`DirCache.statuses_tell`). What carries this
is that the cache holds the hash of that flow, or what it held at the start as long as no patch has
succeeded (`DirCache.Runs.holds`).
-/

namespace FolderFlow

open FileTree (destination SameShape)

namespace DirCache

variable {cache : DirCache} {hash value : String} {s s' : Watched} {cwd : Location}
  {t t' : FileTree}

/-! ## A cache that can be used -/

/-- The directory of the cache is there or can be made, and the entry can be written then. -/
structure Ready (cache : DirCache) (cwd : Location) (t : FileTree) : Prop where
  made : (t.createDirs cwd cache.dir).2 = .ok ()
  target : (t.createDirs cwd cache.dir).1.target cwd (cache.entryPath hashKey) =
    .ok (cache.entryLocation cwd hashKey)

/-- What can be made and written depends on the shape of the files. -/
theorem Ready.of_sameShape (h : cache.Ready cwd t) (hsame : SameShape t t') :
    cache.Ready cwd t' := by
  obtain ⟨hsame', hresult⟩ := hsame.createDirs cwd cache.dir
  exact ⟨hresult.trans h.made, (hsame'.target_eq cwd _).trans h.target⟩

/-- Once the entry was written it can be written again. -/
theorem ready_of_writeBytes {bytes : ByteArray} (hmade : (t.createDirs cwd cache.dir).2 = .ok ())
    (h : (t.createDirs cwd cache.dir).1.writeBytes cwd (cache.entryPath hashKey) bytes = .ok t') :
    cache.Ready cwd t' := by
  have hagain := FileTree.createDirs_again hmade (FileTree.touches_of_writeBytes h).1.grows
  refine ⟨congrArg Prod.snd hagain, ?_⟩
  rw [hagain]
  exact FileTree.target_again h

/-- The cache may be read, made and written at any time, and nothing stands in its way. -/
structure Available (cache : DirCache) (s : Watched) : Prop where
  reads : ∀ events, s.refuses events (.readText (cache.entryPath hashKey)) = none
  makes : ∀ events, s.refuses events (.createDirs cache.dir) = none
  writes : ∀ events text, s.refuses events (.writeText (cache.entryPath hashKey) text) = none
  ready : cache.Ready s.world.cwd s.world.tree

theorem Available.of_follows {asked : List Event} (h : cache.Available s)
    (hfollows : s.Follows asked s') (hready : cache.Ready s.world.cwd s'.world.tree) :
    cache.Available s' := by
  obtain ⟨hreads, hmakes, hwrites, -⟩ := h
  rw [← hfollows.refuses] at hreads hmakes hwrites
  exact ⟨hreads, hmakes, hwrites, hfollows.cwd ▸ hready⟩

/-- What is read from the cache is what it holds. -/
theorem Available.get_eq (h : cache.Available s) :
    ((cache.get hashKey : Watch _).run s).1 = cache.held s.world hashKey := by
  rw [watch_get, (s.ask_of_granted (h.reads s.events)).1]
  rfl

theorem put_of_available {result : Except SystemError Unit} (h : cache.Available s)
    (hput : (cache.put hashKey value : Watch _).run s = (result, s')) :
    result = .ok () ∧ cache.Available s' ∧
      s'.world.readText (cache.entryPath hashKey) = .ok value := by
  obtain ⟨hanswer, hworld⟩ := s.ask_of_granted (h.makes s.events)
  have hasked := Watched.Follows.ask s (.createDirs cache.dir)
  have hmade : (s.ask (.createDirs cache.dir)).1 = .ok () := hanswer.trans h.ready.made
  have hgranted : ∀ events, (s.ask (.createDirs cache.dir)).2.refuses events
      (.writeText (cache.entryPath hashKey) value) = none := fun events => h.writes events value
  have htree : (s.ask (.createDirs cache.dir)).2.world.tree =
    (s.world.tree.createDirs s.world.cwd cache.dir).1 := congrArg World.tree hworld
  rcases put_cases hput with ⟨hresult, hfailed, -⟩ | ⟨-, hwrite⟩
  · exact absurd (hresult.symm.trans hmade) hfailed
  · generalize (s.ask (.createDirs cache.dir)).2 = s₁ at hasked hgranted htree hwrite
    obtain rfl : (s₁.ask (.writeText (cache.entryPath hashKey) value)).2 = s' :=
      congrArg Prod.snd hwrite
    have hresult : (s₁.ask (.writeText (cache.entryPath hashKey) value)).1 = .ok () := by
      rw [(s₁.ask_of_granted (hgranted s₁.events)).1]
      show (s₁.world.writeText (cache.entryPath hashKey) value).1 = .ok ()
      rw [World.writeText_answer, htree, hasked.cwd, h.ready.target]
      rfl
    obtain ⟨tree, hwritten, hworld'⟩ := World.exists_of_writeText (Watched.writeText_of_ask hresult)
    have hfollows := hasked.trans (.ask s₁ (.writeText (cache.entryPath hashKey) value))
    rw [htree, hasked.cwd] at hwritten
    refine ⟨(congrArg Prod.fst hwrite).symm.trans hresult, h.of_follows hfollows ?_, ?_⟩
    · rw [hworld']
      exact ready_of_writeBytes h.ready.made hwritten
    · rw [hworld', World.readText, hasked.cwd]
      exact FileTree.readText_of_writeBytes hwritten

/-- A hash that was recorded is held. It is new unless it was held before. -/
theorem record_of_available {status : CacheStatus} (h : cache.Available s)
    (htrim : Text.trim hash = hash)
    (hrecord : (cache.record hash : Watch _).run s = (status, s')) :
    status = (if cache.held s.world hashKey = some hash then .unchanged else .updated) ∧
      cache.Available s' ∧ cache.held s'.world hashKey = some hash := by
  have hget := h.get_eq
  have hworld := s.ask_readText_world (cache.entryPath hashKey)
  have hasked := Watched.Follows.ask s (.readText (cache.entryPath hashKey))
  have hread : cache.Available ((cache.get hashKey : Watch _).run s).2 := by
    rw [watch_get]
    exact h.of_follows hasked (by rw [hworld]; exact h.ready)
  rcases record_cases hrecord with ⟨hheld, rfl, rfl⟩ | ⟨hheld, result, s₁, hput, hends⟩
  · rw [hget] at hheld
    refine ⟨(if_pos hheld).symm, hread, ?_⟩
    rw [watch_get]
    simpa only [hworld] using hheld
  · rw [hget] at hheld
    obtain ⟨rfl, havailable, htext⟩ := put_of_available hread hput
    rcases hends with ⟨-, rfl, rfl⟩ | ⟨hfailed, -⟩
    · refine ⟨(if_neg hheld).symm, havailable, ?_⟩
      rw [held, htext]
      exact congrArg some htrim
    · exact absurd rfl hfailed

/-! ## What leaves the cache alone -/

/-- From `s` to `s'` the cache stays usable, and it holds what it held. -/
structure Spares (cache : DirCache) (s s' : Watched) : Prop where
  available : cache.Available s → cache.Available s'
  held : cache.held s'.world hashKey = cache.held s.world hashKey

namespace Spares

theorem refl (cache : DirCache) (s : Watched) : cache.Spares s s :=
  ⟨id, rfl⟩

theorem trans {s'' : Watched} (h : cache.Spares s s') (h' : cache.Spares s' s'') :
    cache.Spares s s'' :=
  ⟨fun havailable => h'.available (h.available havailable), h'.held.trans h.held⟩

end Spares

end DirCache

namespace Docs.BroughtUpToDate

variable {path : String} {flow : Flow} {docs : DocsOptions} {written : Bool} {w : World}
  {t : FileTree}

theorem find?_eq {loc : Location} (h : Docs.BroughtUpToDate path flow docs written w t)
    (hne : loc ≠ destination w.cwd path) : t.find? loc = w.tree.find? loc :=
  Classical.byContradiction fun hchanged => hne (h.frame loc hchanged).2

/-- The docs file was there before, and it still is a file. -/
theorem sameShape (h : Docs.BroughtUpToDate path flow docs written w t) :
    SameShape w.tree t := by
  obtain ⟨current, text, hread, -, hread', -⟩ := h.text
  have hfile := (FileTree.readText_eq_ok_iff.mp hread).2
  have hfile' := (FileTree.readText_eq_ok_iff.mp hread').2
  refine ⟨fun loc => ?_, fun loc => ?_⟩
  · by_cases hloc : loc = destination w.cwd path
    · rw [hloc, hfile, hfile']
      rfl
    · rw [h.find?_eq hloc]
  · by_cases hloc : loc = destination w.cwd path
    · rw [hloc, FileTree.isDir, FileTree.isDir, hfile, hfile']
      rfl
    · rw [FileTree.isDir, FileTree.isDir, h.find?_eq hloc]

end Docs.BroughtUpToDate

namespace DirCache

variable {cache : DirCache} {s s' : Watched} {path : String} {flow : Flow} {docs : DocsOptions}

/-- A docs file that is not the entry of the cache may be written. -/
theorem spares_of_rewrite {ε : Type} {compile : String → Except ε Unit}
    {result : Except (DocsError ε) Bool}
    (hapart : cache.entryLocation s.world.cwd hashKey ≠ destination s.world.cwd path)
    (hrewrite : (DocsPatcher.rewrite compile path flow docs : Watch _).run s = (result, s')) :
    cache.Spares s s' := by
  obtain ⟨own, hfollows, -, htree⟩ := DocsPatcher.rewrite_cases hrewrite
  cases result with
  | error e =>
    have hworld : s'.world = s.world := htree
    exact ⟨fun h => h.of_follows hfollows (hworld ▸ h.ready), by rw [hworld]⟩
  | ok written =>
    have hbrought : Docs.BroughtUpToDate path flow docs written s.world s'.world.tree := htree
    have hsame := hbrought.sameShape
    refine ⟨fun h => h.of_follows hfollows (h.ready.of_sameShape hsame), ?_⟩
    rw [held, held, World.readText, World.readText, hfollows.cwd,
      hsame.readText_eq (hbrought.find?_eq hapart)]

end DirCache

/-! ## One call -/

/-- A patch that is called in the state `before`. -/
structure PatchCall (ε : Type := Empty) where
  patcher : DocsPatcher ε
  flow : Flow
  docs : DocsOptions
  before : Watched

namespace PatchCall

open DirCache (hashKey)

variable {ε : Type} {cache : DirCache} {call : PatchCall ε}

/-- The path of the docs file. -/
def path (call : PatchCall ε) : String :=
  call.patcher.docsPath call.docs

def result (call : PatchCall ε) : Except (DocsError ε) PatchReport :=
  ((call.patcher.patch call.flow call.docs : Watch _).run call.before).1

def after (call : PatchCall ε) : Watched :=
  ((call.patcher.patch call.flow call.docs : Watch _).run call.before).2

def succeeds (call : PatchCall ε) : Bool :=
  call.result.isOk

/-- The call uses the cache. Its docs file is not the entry of the cache, and its formatter, where
it is run, leaves the cache alone. -/
structure Shares (cache : DirCache) (call : PatchCall ε) : Prop where
  uses : call.patcher.cache = some cache
  apart : cache.entryLocation call.before.world.cwd hashKey ≠
    destination call.before.world.cwd call.path
  formatter : ∀ s, (DocsPatcher.rewrite call.patcher.compile call.path call.flow call.docs :
    Watch _).run call.before = (.ok true, s) →
      cache.Spares s ((call.patcher.format call.path : Watch _).run s).2

/-- The status of a call that succeeds tells whether its flow has the hash `last`, and its own hash
is what the cache gives from then on. A call that fails changes nothing. -/
structure Tells (cache : DirCache) (last : Option String) (call : PatchCall ε) : Prop where
  status : ∀ report, call.result = .ok report →
    report.cache = if last = some call.flow.hash then .unchanged else .updated
  given : ∀ report, call.result = .ok report →
    ((cache.get hashKey : Watch _).run call.after).1 = some call.flow.hash
  failed : ∀ error, call.result = .error error → call.after.world = call.before.world

theorem tells_of_shares (h : call.Shares cache) (havailable : cache.Available call.before) :
    cache.Available call.after ∧ call.Tells cache (cache.held call.before.world hashKey) := by
  have hrun := call.patcher.run_patch call.flow call.docs call.before
  generalize hrewrite : (DocsPatcher.rewrite call.patcher.compile
    (call.patcher.docsPath call.docs) call.flow call.docs : Watch _).run call.before =
      rewritten at hrun
  obtain ⟨result, s₁⟩ := rewritten
  have hrewritten := DirCache.spares_of_rewrite h.apart hrewrite
  cases result with
  | error e =>
    have hresult : call.result = .error e := congrArg Prod.fst hrun
    have hafter : call.after = s₁ := congrArg Prod.snd hrun
    obtain ⟨own, -, -, hworld⟩ := DocsPatcher.rewrite_cases hrewrite
    exact ⟨hafter ▸ hrewritten.available havailable, by simp [hresult], by simp [hresult],
      fun _ _ => hafter ▸ hworld⟩
  | ok written =>
    simp only [DocsPatcher.finish, Watch.run_bind, Watch.run_pure] at hrun
    generalize hconclude : (call.patcher.conclude call.flow (call.patcher.docsPath call.docs)
      written : Watch _).run s₁ = concluded at hrun
    obtain ⟨report, s'⟩ := concluded
    have hresult : call.result = .ok report := congrArg Prod.fst hrun
    have hafter : call.after = s' := congrArg Prod.snd hrun
    obtain ⟨s₂, hrecord, -, -, -, hformat⟩ := DocsPatcher.conclude_cases hconclude
    have hformatted : cache.Spares s₁ s₂ := by
      rcases hformat with ⟨rfl, hformat⟩ | ⟨-, -, rfl⟩
      · have hspares := h.formatter s₁ hrewrite
        rwa [path, hformat] at hspares
      · exact .refl cache _
    have hspares := hrewritten.trans hformatted
    rcases DocsPatcher.record_cases hrecord with ⟨hnone, -⟩ | ⟨_, hsome, hrecord⟩
    · exact absurd (hnone.symm.trans h.uses) (by simp)
    · obtain rfl := Option.some.inj (hsome.symm.trans h.uses)
      obtain ⟨hstatus, havailable', hheld⟩ := DirCache.record_of_available
        (hspares.available havailable) call.flow.trim_hash hrecord
      rw [hspares.held] at hstatus
      refine ⟨hafter ▸ havailable', fun report' h => ?_, fun _ _ => ?_, by simp [hresult]⟩
      · obtain rfl := Except.ok.inj (hresult.symm.trans h)
        exact hstatus
      · rw [hafter, havailable'.get_eq, hheld]

theorem Tells.held_after {last : Option String} (h : call.Tells cache last)
    (havailable : cache.Available call.after) : cache.held call.after.world hashKey =
      if call.succeeds then some call.flow.hash else cache.held call.before.world hashKey := by
  unfold succeeds
  cases hresult : call.result with
  | error e => exact congrArg (cache.held · hashKey) (h.failed e hresult)
  | ok report => exact havailable.get_eq.symm.trans (h.given report hresult)

/-- The hash that the last of the calls that succeeded has recorded. -/
def lastHash? (calls : List (PatchCall ε)) : Option String :=
  (calls.filter succeeds).getLast?.map fun call => call.flow.hash

theorem lastHash?_concat (calls : List (PatchCall ε)) (call : PatchCall ε) :
    lastHash? (calls ++ [call]) =
      if call.succeeds then some call.flow.hash else lastHash? calls := by
  rw [lastHash?, List.filter_append]
  split
  · rename_i hsucceeds
    rw [List.filter_cons_of_pos hsucceeds, List.filter_nil, List.getLast?_concat]
    rfl
  · rename_i hfails
    rw [List.filter_cons_of_neg hfails, List.filter_nil, List.append_nil]
    rfl

end PatchCall

/-! ## Any number of calls -/

namespace DirCache

open PatchCall (lastHash?)

variable {ε : Type} {cache : DirCache} {s s' : Watched} {calls earlier later : List (PatchCall ε)}
  {call : PatchCall ε}

/-- Calls that share the cache are made one after another. Between them anything may happen that
leaves the cache alone. -/
inductive Runs (cache : DirCache) (s : Watched) : List (PatchCall ε) → Watched → Prop
  | nil : Runs cache s [] s
  | call {calls : List (PatchCall ε)} {call : PatchCall ε} (h : Runs cache s calls call.before)
      (hshares : call.Shares cache) : Runs cache s (calls ++ [call]) call.after
  | meanwhile {calls : List (PatchCall ε)} {s₁ s₂ : Watched} (h : Runs cache s calls s₁)
      (hspares : cache.Spares s₁ s₂) : Runs cache s calls s₂

/-- The calls before a call are a run that ends where the call begins. -/
theorem Runs.before_call (h : cache.Runs s calls s') (hcalls : calls = earlier ++ call :: later) :
    cache.Runs s earlier call.before ∧ call.Shares cache := by
  induction h generalizing later with
  | nil => exact absurd hcalls (by simp)
  | @call calls last h hshares ih =>
    rcases List.eq_nil_or_concat later with rfl | ⟨later, call', rfl⟩
    · obtain ⟨rfl, hlast⟩ := List.append_inj' hcalls rfl
      obtain rfl := List.head_eq_of_cons_eq hlast
      exact ⟨h, hshares⟩
    · rw [List.concat_eq_append, ← List.cons_append, ← List.append_assoc] at hcalls
      exact ih (List.append_inj' hcalls rfl).1
  | meanwhile _ _ ih => exact ih hcalls

/-- The cache holds the hash of the last call that succeeded, or what it held at the start. -/
theorem Runs.holds (h : cache.Runs s calls s') (havailable : cache.Available s) :
    cache.Available s' ∧
      cache.held s'.world hashKey = (lastHash? calls).or (cache.held s.world hashKey) := by
  induction h with
  | nil => exact ⟨havailable, rfl⟩
  | @call calls call h hshares ih =>
    obtain ⟨hbefore, hheld⟩ := ih
    obtain ⟨hafter, htells⟩ := PatchCall.tells_of_shares hshares hbefore
    refine ⟨hafter, ?_⟩
    rw [htells.held_after hafter, PatchCall.lastHash?_concat]
    split
    · rfl
    · exact hheld
  | meanwhile h hspares ih =>
    obtain ⟨hbefore, hheld⟩ := ih
    exact ⟨hspares.available hbefore, hspares.held.trans hheld⟩

/-- **What the status tells.** A call that succeeds finds the cache unchanged exactly when the hash
of its flow is that of the last call before it that succeeded or, if there is none, the text that
the entry held at the start. Calls that fail do not count. The files are any tree of files and
directories, without links, permissions and special files. -/
theorem statuses_tell (h : cache.Runs s calls s') (havailable : cache.Available s)
    (hcalls : calls = earlier ++ call :: later) :
    call.Tells cache ((lastHash? earlier).or (cache.held s.world hashKey)) := by
  obtain ⟨hearlier, hshares⟩ := h.before_call hcalls
  obtain ⟨hbefore, hheld⟩ := hearlier.holds havailable
  rw [← hheld]
  exact (PatchCall.tells_of_shares hshares hbefore).2

/-! ## A run with a call that fails -/

/-- A call that keeps the hash beside the docs file. -/
def callOn (file : String) (before : Watched) : PatchCall where
  patcher := DocsPatcher.inPlace
  flow := (DocsPatcher.noted "See above.").flow
  docs := { DocsPatcher.notedDocs "See above." with file }
  before := before

def firstCall : PatchCall :=
  callOn "R.md" DocsPatcher.markersOnly.watched

/-- There is no such file. -/
def failedCall : PatchCall :=
  callOn "S.md" firstCall.after

def lastCall : PatchCall :=
  callOn "R.md" failedCall.after

theorem lastHash?_firstCall :
    lastHash? [firstCall, failedCall] = some (DocsPatcher.noted "See above.").flow.hash := by
  have hfirst : firstCall.succeeds = true := by decide +kernel
  have hfailed : failedCall.succeeds = false := by decide +kernel
  simp only [lastHash?, List.filter_cons, hfirst, hfailed]
  rfl

theorem available_markersOnly :
    DirCache.Available ⟨""⟩ DocsPatcher.markersOnly.watched :=
  ⟨fun _ => rfl, fun _ => rfl, fun _ _ => rfl, rfl, rfl⟩

theorem runs_lastCall :
    Runs ⟨""⟩ DocsPatcher.markersOnly.watched [firstCall, failedCall, lastCall] lastCall.after := by
  have hfirst : firstCall.Shares ⟨""⟩ := ⟨rfl, by decide +kernel, fun s _ => .refl _ s⟩
  have hfailed : failedCall.Shares ⟨""⟩ := ⟨rfl, by decide +kernel, fun s _ => .refl _ s⟩
  have hlast : lastCall.Shares ⟨""⟩ := ⟨rfl, by decide +kernel, fun s _ => .refl _ s⟩
  exact ((Runs.nil.call hfirst).call hfailed).call hlast

/-- The call that fails is no matter for the one behind it. -/
theorem status_after_failedCall :
    Runs ⟨""⟩ DocsPatcher.markersOnly.watched [firstCall, failedCall, lastCall] lastCall.after ∧
    DirCache.Available ⟨""⟩ DocsPatcher.markersOnly.watched ∧
    [firstCall, failedCall, lastCall] = [firstCall, failedCall] ++ lastCall :: [] ∧
    lastCall.Tells ⟨""⟩ (some (DocsPatcher.noted "See above.").flow.hash) := by
  have hcalls : [firstCall, failedCall, lastCall] = [firstCall, failedCall] ++ lastCall :: [] := rfl
  have htells := statuses_tell runs_lastCall available_markersOnly hcalls
  rw [lastHash?_firstCall, Option.some_or] at htells
  exact ⟨runs_lastCall, available_markersOnly, hcalls, htells⟩

end DirCache

end FolderFlow
