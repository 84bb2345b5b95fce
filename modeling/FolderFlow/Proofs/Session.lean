import FolderFlow.Proofs.CommandFrame

/-!
# Sessions

A session is a row of invocations, each of which begins where the one before it ended.
`session_framed`: an invocation that fails leaves the files as they were, and one that succeeds
changes no more than what it is there to change. So whatever has changed at the end of a session
belongs to an invocation that succeeded. What a formatter does is left out: none may have been
started, and none is where no name leads to it (`unformatted_of_lacks`).
-/

namespace FolderFlow

open FileTree (ChangesWithin)
open Watch (LeavesFiles)

variable {s : Watched}

/-! ## One invocation -/

namespace Invocation

/-- The places that an invocation may change, given the files behind it. -/
def Place (i : Invocation) (s : Watched) (t' : FileTree) (loc : Location) : Prop :=
  match i with
  | run config command => command.Place config s t' loc
  | _ => False

/-- The invocation writes nothing. -/
def OnlyReads : Invocation → Prop
  | run _ command => command.OnlyReads
  | _ => True

/-- The invocation is to run the formatter. -/
def Formats : Invocation → Prop
  | run _ command => command.Formats
  | _ => False

end Invocation

/-- An invocation that has run, and the states before and behind it. -/
structure Performed where
  invocation : Invocation
  before : Watched
  outcome : Invocation.Outcome
  after : Watched

/-- The formatter, where it was to be run, could not be started. -/
def Performed.Unformatted (p : Performed) : Prop :=
  p.invocation.Formats → p.before.StartsNothing p.after

/-- A failure leaves the files as they were, and so does an invocation that only reads. What has
changed lies at the places of the invocation. Where nothing is refused, the invocation does the same
in a sandbox. -/
structure Performed.Framed (p : Performed) : Prop where
  failure : p.outcome.code ≠ 0 → p.after.world.tree = p.before.world.tree
  reading : p.invocation.OnlyReads → p.after.world.tree = p.before.world.tree
  changes : ChangesWithin (p.invocation.Place p.before p.after.world.tree) p.before.world.tree
    p.after.world.tree
  sandbox : p.before.Grants →
    (p.invocation.perform : Sandbox _).run p.before.world = (p.outcome, p.after.world)

namespace Invocation

variable {i : Invocation}

/-- Runs the invocation. -/
def performed (i : Invocation) (s : Watched) : Performed where
  invocation := i
  before := s
  outcome := ((i.perform : Watch _).run s).1
  after := ((i.perform : Watch _).run s).2

/-- The outcome of a command that ended this way. -/
def Outcome.ofResult : Except CommandError Unit → Outcome
  | .ok () => ⟨0, none⟩
  | .error e => ⟨1, some e⟩

theorem performed_run (config : Option String) (command : Command) (s : Watched) :
    (run config command).performed s =
      ⟨run config command, s, .ofResult ((command.run config : Watch _).run s).1,
        ((command.run config : Watch _).run s).2⟩ := by
  simp only [performed, perform, Watch.run_bind]
  cases ((command.run config : Watch _).run s).1 <;> rfl

theorem keepsFiles_of_leavesFiles (h : LeavesFiles i.perform) (s : Watched) :
    s.KeepsFiles (i.performed s).after :=
  h s

theorem keepsFiles_performed (h : i.OnlyReads) (s : Watched) :
    s.KeepsFiles (i.performed s).after := by
  cases i with
  | run config command =>
    rw [performed_run]
    exact Command.keepsFiles_run h config s
  | help =>
    refine keepsFiles_of_leavesFiles ?_ s
    exact .bind (Command.leavesFiles_printLines helpLines) fun _ => .pure _
  | version =>
    refine keepsFiles_of_leavesFiles ?_ s
    exact .bind (.print (versionLine ++ "\n")) fun _ => .pure _
  | usageError => exact .refl s

theorem exists_follows_performed (i : Invocation) (s : Watched) :
    ∃ asked, s.Follows asked (i.performed s).after :=
  Watch.Advances.relates.perform i s

theorem run_perform_of_grants (i : Invocation) (hgrants : s.Grants) :
    (i.perform : Sandbox _).run s.world =
      ((i.performed s).outcome, (i.performed s).after.world) := by
  obtain ⟨houtcome, hworld, -⟩ := i.mirrors_perform s hgrants
  exact Prod.ext houtcome.symm hworld.symm

theorem framed_of_onlyReads (h : i.OnlyReads) (s : Watched) : (i.performed s).Framed := by
  have htree := (keepsFiles_performed h s).tree
  refine ⟨fun _ => htree, fun _ => htree, ?_, i.run_perform_of_grants⟩
  rw [htree]
  exact .refl _ _

theorem framed_performed (hs : s.Discreet) (hnone : (i.performed s).Unformatted) :
    (i.performed s).Framed := by
  cases i with
  | run config command =>
    have hgrants := (run config command).run_perform_of_grants (s := s)
    rw [performed_run] at hnone hgrants ⊢
    have hends := Command.ends_run hs config command hnone
    refine ⟨fun hcode => ?_, fun hreads => (Command.keepsFiles_run hreads config s).tree,
      hends.changes, hgrants⟩
    cases hresult : ((command.run config : Watch _).run s).1 with
    | error e => exact hends.failure e hresult
    | ok => exact absurd rfl (hresult ▸ hcode)
  | _ =>
    refine framed_of_onlyReads ?_ s
    trivial

theorem unformatted_performed (i : Invocation)
    (hlacks : s.world.Lacks Formatter.prettier.program) : (i.performed s).Unformatted := by
  intro hformats
  cases i with
  | run config command =>
    rw [performed_run]
    exact Command.startsNothing_run hformats hlacks config
  | _ => exact hformats.elim

end Invocation

/-! ## Invocations in a row -/

/-- Runs invocations one after the other. -/
def session (s : Watched) : List Invocation → List Performed
  | [] => []
  | i :: rest => i.performed s :: session (i.performed s).after rest

/-- Where a session ends. -/
def afterSession (s : Watched) : List Invocation → Watched
  | [] => s
  | i :: rest => afterSession (i.performed s).after rest

/-- Where no name leads to the formatter, it cannot be started. -/
theorem unformatted_of_lacks (hlacks : s.world.Lacks Formatter.prettier.program)
    (invocations : List Invocation) : ∀ p ∈ session s invocations, p.Unformatted := by
  induction invocations generalizing s with
  | nil => simp [session]
  | cons i rest ih =>
    obtain ⟨asked, hfollows⟩ := i.exists_follows_performed s
    exact List.forall_mem_cons.mpr ⟨i.unformatted_performed hlacks, ih (hfollows.lacks hlacks)⟩

/-- **What a session leaves behind.** Whatever calls are refused meanwhile, as long as no formatter
can be started: an invocation that fails leaves the files as they were, `check` and `rules` without
an output file never change them, and all that has changed at the end lies at the places of an
invocation that succeeded. The files are any tree of files and directories, without links,
permissions and special files. -/
theorem session_framed (hs : s.Discreet) (invocations : List Invocation)
    (hnone : ∀ p ∈ session s invocations, p.Unformatted) :
    (∀ p ∈ session s invocations, p.Framed) ∧
    ChangesWithin (fun loc => ∃ p ∈ session s invocations, p.outcome.code = 0 ∧
        p.invocation.Place p.before p.after.world.tree loc)
      s.world.tree (afterSession s invocations).world.tree := by
  induction invocations generalizing s with
  | nil => exact ⟨by simp [session], .refl _ _⟩
  | cons i rest ih =>
    obtain ⟨hfirst, hlater⟩ := List.forall_mem_cons.mp hnone
    have hframed := Invocation.framed_performed hs hfirst
    obtain ⟨asked, hfollows⟩ := i.exists_follows_performed s
    have hs' : (i.performed s).after.Discreet := by
      rw [Watched.Discreet, hfollows.refuses]
      exact hs
    obtain ⟨hall, hrest⟩ := ih hs' hlater
    refine ⟨List.forall_mem_cons.mpr ⟨hframed, hall⟩, fun loc hne => ?_⟩
    by_cases hsame : (i.performed s).after.world.tree.find? loc = s.world.tree.find? loc
    · rw [← hsame] at hne
      obtain ⟨p, hp, hcode, hplace⟩ := hrest loc hne
      exact ⟨p, List.mem_cons_of_mem _ hp, hcode, hplace⟩
    · -- the files differ, so the first invocation has not failed
      refine ⟨i.performed s, List.mem_cons_self, ?_, hframed.changes loc hsame⟩
      by_contra hcode
      exact hsame (congrArg (·.find? loc) (hframed.failure hcode))

/-- A configuration that names the docs file `d`. -/
def documentedText : String :=
  "\x7b\"appAlias\":\"@\",\"dependencyFlow\":[[\"a\",\"b\"]],\"lintFiles\":\"\x7bfolder\x7d\"," ++
    "\"docs\":\x7b\"file\":\"d\",\"markerTag\":\"T\",\"content\":\"c\"\x7d\x7d"

/-- A project with its docs file, in which no program is to be found. -/
def documented : Watched :=
  World.watched {
    tree := ⟨[([ConfigSource.jsonName], .file documentedText.toUTF8),
      (["d"], .file "<!--T:START--><!--T:END-->".toUTF8)]⟩
    cwd := []
    programs _ := none
    output := ""
    searchPath := ["/bin"] }

/-- Lists the rules into a file, patches the docs and begins a new project. -/
def rulesDocsInit : List Invocation :=
  [.run none (.rules .text (some "out")), .run none (.docs true none), .run none (.init false)]

theorem lacks_documented : documented.world.Lacks Formatter.prettier.program := by
  refine World.lacks_of_programIn (by decide) fun tree start dir _ found hfound => ?_
  obtain ⟨loc, hloc⟩ := World.exists_programs_of_programIn hfound
  exact absurd hloc (by simp [documented, World.watched])

theorem rulesDocsInit_framed :
    documented.Discreet ∧ (∀ p ∈ session documented rulesDocsInit, p.Unformatted) ∧
    (session documented rulesDocsInit).map (·.outcome.code) = [0, 0, 1] ∧
    (documented.world.tree.find? ["out"]).isSome = false ∧
    ((afterSession documented rulesDocsInit).world.tree.find? ["out"]).isSome = true ∧
    (∀ p ∈ session documented rulesDocsInit, p.Framed) ∧
    ChangesWithin (fun loc => ∃ p ∈ session documented rulesDocsInit, p.outcome.code = 0 ∧
        p.invocation.Place p.before p.after.world.tree loc)
      documented.world.tree (afterSession documented rulesDocsInit).world.tree := by
  have hdiscreet : documented.Discreet := World.discreet_watched _
  have hnone := unformatted_of_lacks lacks_documented rulesDocsInit
  have hruns : (session documented rulesDocsInit).map (·.outcome.code) = [0, 0, 1] ∧
      ((afterSession documented rulesDocsInit).world.tree.find? ["out"]).isSome = true := by
    decide +kernel
  obtain ⟨hcodes, hwritten⟩ := hruns
  obtain ⟨hall, hchanges⟩ := session_framed hdiscreet rulesDocsInit hnone
  exact ⟨hdiscreet, hnone, hcodes, by decide, hwritten, hall, hchanges⟩

end FolderFlow
