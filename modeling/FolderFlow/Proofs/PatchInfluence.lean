import FolderFlow.Proofs.PatchFrame
import FolderFlow.Shell.Sandbox

/-!
# What decides a patch

What a patch does to the docs file is decided by the docs file, the flow and the options for the
docs. Two patchers with the same root that accept the same tags may keep different caches, or none,
in different states, and they may run different formatters, or none: where the docs file is the same
they ask for it in the same way, write the same text to it and report the same
(`DocsPatcher.patch_alike`).
-/

namespace FolderFlow

open FileTree (AgreeOn startOf)

/-! ## Runs alike -/

namespace Watch

variable {α β : Type} {x y : Watch α} {f g : α → Watch β} {s t : Watched}

/-- Two computations, each on a state of its own, that ask the same, are answered the same and come
to the same result. -/
structure RunsAlike (x y : Watch α) (s t : Watched) : Prop where
  result : (y.run t).1 = (x.run s).1
  asked : ∃ own, (x.run s).2.events = s.events ++ own ∧ (y.run t).2.events = t.events ++ own

namespace RunsAlike

theorem pure (a : α) : RunsAlike (pure a) (pure a) s t :=
  ⟨rfl, [], (List.append_nil _).symm, (List.append_nil _).symm⟩

theorem ask (call : Call) (h : (t.ask call).1 = (s.ask call).1) :
    RunsAlike (fun s => s.ask call) (fun s => s.ask call) s t :=
  ⟨h, [⟨call, (s.ask call).1⟩], rfl, h ▸ rfl⟩

theorem bind (hx : RunsAlike x y s t)
    (hf : ∀ a, RunsAlike (f a) (g a) (x.run s).2 (y.run t).2) :
    RunsAlike (x >>= f) (y >>= g) s t := by
  obtain ⟨own, hs, ht⟩ := hx.asked
  obtain ⟨later, hs', ht'⟩ := (hf (x.run s).1).asked
  refine ⟨?_, own ++ later, ?_, ?_⟩
  · rw [run_bind, run_bind, hx.result, (hf _).result]
  · rw [run_bind, hs', hs, List.append_assoc]
  · rw [run_bind, hx.result, ht', ht, List.append_assoc]

end RunsAlike

end Watch

/-! ## The docs file -/

namespace Watched

variable {s t : Watched} {path text : String}

theorem answer_eq {call : Call} (hrefuses : t.refuses t.events call = s.refuses s.events call)
    (hperform : (call.perform t.world).1 = (call.perform s.world).1) :
    (t.ask call).1 = (s.ask call).1 := by
  unfold ask answer
  rw [hrefuses]
  cases s.refuses s.events call with
  | some e => rfl
  | none => exact hperform

/-- A file is the same in two states, and it may be read and written in both or in neither. Whatever
does not lie on the way to it may differ, and so may what is refused elsewhere and the programs. -/
structure SameFile (path : String) (s t : Watched) : Prop where
  cwd : t.world.cwd = s.world.cwd
  tree : AgreeOn (startOf s.world.cwd path) (Path.steps path) s.world.tree t.world.tree
  read : t.refuses t.events (.readText path) = s.refuses s.events (.readText path)
  write : ∀ answer text,
    t.refuses (t.events ++ [⟨.readText path, answer⟩]) (.writeText path text) =
      s.refuses (s.events ++ [⟨.readText path, answer⟩]) (.writeText path text)

namespace SameFile

/-- Two patchers may also be compared in one state. -/
theorem refl (path : String) (s : Watched) : SameFile path s s :=
  ⟨rfl, fun _ _ => rfl, rfl, fun _ _ => rfl⟩

theorem readText (h : SameFile path s t) :
    (t.ask (.readText path)).1 = (s.ask (.readText path)).1 := by
  refine answer_eq h.read ?_
  show t.world.tree.readText t.world.cwd path = s.world.tree.readText s.world.cwd path
  rw [h.cwd, h.tree.readText_eq]

theorem writeText (h : SameFile path s t) (text : String) :
    ((t.ask (.readText path)).2.ask (.writeText path text)).1 =
      ((s.ask (.readText path)).2.ask (.writeText path text)).1 := by
  refine answer_eq ?_ ?_
  · rw [ask_events, ask_events, ask_refuses, ask_refuses, h.readText]
    exact h.write _ text
  · rw [ask_readText_world, ask_readText_world]
    show (t.world.writeText path text).1 = (s.world.writeText path text).1
    rw [World.writeText_answer, World.writeText_answer, h.cwd, h.tree.target_eq]

end SameFile

end Watched

/-- What a report says of the docs file and of the flow. -/
def PatchReport.core (report : PatchReport) : String × Bool × String :=
  (report.path, report.written, report.hash)

namespace DocsPatcher

open Watch (RunsAlike)
open Watched (SameFile)

variable {ε : Type} {p q : DocsPatcher ε} {compile : String → Except ε Unit} {flow : Flow}
  {docs : DocsOptions} {path current text : String} {s t s' : Watched}

theorem update_alike (h : (t.ask (.writeText path text)).1 = (s.ask (.writeText path text)).1) :
    RunsAlike (update path current text) (update path current text) s t := by
  unfold update
  split
  · exact .pure _
  · refine .bind (.ask (.writeText path text) h) fun written => ?_
    cases written with
    | error e => exact .pure _
    | ok => exact .bind (.ask (.print _) rfl) fun _ => .pure _

/-- Where the docs file is the same, it is brought up to date by the same calls. -/
theorem rewrite_alike (compile : String → Except ε Unit) (flow : Flow) (docs : DocsOptions)
    (h : SameFile path s t) :
    RunsAlike (rewrite compile path flow docs) (rewrite compile path flow docs) s t := by
  unfold rewrite
  cases compile docs.markerTag with
  | error complaint => exact .pure _
  | ok =>
    refine .bind (.ask (.readText path) h.readText) fun read => ?_
    cases read with
    | error e => exact .pure _
    | ok current =>
      dsimp only
      cases Docs.patched flow docs current with
      | error fault => exact .pure _
      | ok text =>
        refine .bind (update_alike (h.writeText text)) fun updated => ?_
        cases updated with
        | error e => exact .pure _
        | ok written => exact .pure _

/-! ## The whole patch -/

/-- Calls that are made for the sake of the formatter and the cache. -/
structure Aside (p : DocsPatcher ε) (flow : Flow) (path : String)
    (outcome : Except (DocsError ε) PatchReport) (aside : List Event) : Prop where
  calls : ∀ event ∈ aside, p.FormatCall path event.call ∨ p.RecordCall flow.hash event.call
  /-- A formatter that is said to have worked was started and ended well. -/
  formatted : ∀ report, outcome = .ok report → report.formatted = true →
    report.written = true ∧ p.FormatterSucceeded aside

theorem exists_aside {result : Except (DocsError ε) Bool}
    {outcome : Except (DocsError ε) PatchReport}
    (h : (p.finish flow path result : Watch _).run s = (outcome, s')) :
    outcome.map PatchReport.written = result ∧
      outcome.map PatchReport.core = result.map (fun written => (path, written, flow.hash)) ∧
      ∃ aside, s'.events = s.events ++ aside ∧ p.Aside flow path outcome aside := by
  cases result with
  | error e =>
    obtain ⟨rfl, rfl⟩ := Prod.mk.inj h
    exact ⟨rfl, rfl, [], (List.append_nil _).symm, by simp, by simp⟩
  | ok written =>
    simp only [finish, Watch.run_bind, Watch.run_pure] at h
    generalize hconclude : (p.conclude flow path written : Watch _).run s = concluded at h
    obtain ⟨report, s₂⟩ := concluded
    obtain ⟨rfl, rfl⟩ := Prod.mk.inj h
    obtain ⟨formatting, s₁, hformats, hrecord, hwritten, -⟩ := exists_formatCalls hconclude
    obtain ⟨recording, hrecording, hcalls, -⟩ := exists_recordCalls hrecord
    obtain ⟨-, -, rfl, rfl, hhash, -⟩ := conclude_cases hconclude
    refine ⟨rfl, congrArg Except.ok (Prod.ext rfl (Prod.ext rfl hhash)), formatting ++ recording,
      (hformats.follows.trans hrecording).events, fun event hevent => ?_, ?_⟩
    · exact (List.mem_append.mp hevent).imp (hformats.calls event) (hcalls event)
    · intro report' hreport hformatted
      obtain rfl := Except.ok.inj hreport
      exact ⟨hwritten hformatted,
        (hformats.success hformatted).mono (List.subset_append_left _ _)⟩

/-- A patch that asks for `own` to bring the docs file up to date, and then leaves it to the
formatter and the cache. -/
structure RewritesBy (p : DocsPatcher ε) (flow : Flow) (docs : DocsOptions) (own : List Event)
    (s : Watched) : Prop where
  rewrites : Docs.Rewrites p.compile (p.docsPath docs) flow docs
    (((p.patch flow docs : Watch _).run s).1.map PatchReport.written) own
  aside : ∃ aside, ((p.patch flow docs : Watch _).run s).2.events = s.events ++ own ++ aside ∧
    p.Aside flow (p.docsPath docs) ((p.patch flow docs : Watch _).run s).1 aside

theorem rewritesBy_of_rewrite {own : List Event}
    (h : ((rewrite p.compile (p.docsPath docs) flow docs : Watch _).run s).2.events =
      s.events ++ own) :
    p.RewritesBy flow docs own s ∧ ((p.patch flow docs : Watch _).run s).1.map PatchReport.core =
      ((rewrite p.compile (p.docsPath docs) flow docs : Watch _).run s).1.map
        fun written => (p.docsPath docs, written, flow.hash) := by
  have hrun := p.run_patch flow docs s
  generalize hrewrite :
    (rewrite p.compile (p.docsPath docs) flow docs : Watch _).run s = rewritten at h hrun ⊢
  generalize hpatch : (p.patch flow docs : Watch _).run s = outcome at hrun ⊢
  obtain ⟨own', hfollows, hrewrites, -⟩ := rewrite_cases hrewrite
  obtain rfl := List.append_cancel_left (hfollows.events.symm.trans h)
  obtain ⟨hwritten, hcore, aside, hevents, haside⟩ := exists_aside hrun.symm
  refine ⟨⟨?_, aside, ?_, ?_⟩, hcore⟩
  · rwa [hpatch, hwritten]
  · rw [hpatch, hevents, h]
  · rwa [hpatch]

/-- **What decides a patch.** Neither the cache nor the formatter does: patchers with the same root
that accept the same tags, each in a state of its own, come to the same fault or to reports that say
the same of the docs file and of the flow, and they write the same text to the docs file. What else
they ask, they ask for the sake of the formatter and the cache.

A formatter is any program that a path or a name leads to, and may do anything to the files. Of
these there are trees of files and directories, without links, permissions and special files. -/
theorem patch_alike (flow : Flow) (hroot : q.root = p.root) (hcompile : q.compile = p.compile)
    (h : SameFile (p.docsPath docs) s t) :
    ((q.patch flow docs : Watch _).run t).1.map PatchReport.core =
        ((p.patch flow docs : Watch _).run s).1.map PatchReport.core ∧
      ∃ own, p.RewritesBy flow docs own s ∧ q.RewritesBy flow docs own t := by
  have hpath : q.docsPath docs = p.docsPath docs := by rw [docsPath, docsPath, hroot]
  obtain ⟨hresult, own, hs, ht⟩ := rewrite_alike p.compile flow docs h
  rw [← hpath, ← hcompile] at ht
  obtain ⟨hp, hcore⟩ := rewritesBy_of_rewrite hs
  obtain ⟨hq, hcore'⟩ := rewritesBy_of_rewrite ht
  refine ⟨?_, own, hp, hq⟩
  rw [hcore', hcore, hpath, hcompile, hresult]

/-! ## Formatters that fail and succeed -/

/-- A shell that runs a script, found by its name. The file is the first argument of the script. -/
def shellFormatter (script : String) : Formatter where
  program := "sh"
  args := ["-c", script, "sh"]

/-- The docs file with the markers, and a shell in a directory of the search path. -/
def shellWorld (others : List (Location × Entry)) : World where
  tree := ⟨(["R.md"], .file "<!--T:START--><!--T:END-->".toUTF8) ::
    (["bin"], .dir) :: (Shell.shellFile, .file .empty) :: others⟩
  cwd := []
  programs := Shell.programs
  output := ""
  searchPath := ["/sbin", "/bin"]

/-- The formatter fails, and so does the cache. -/
def failingPatcher : DocsPatcher where
  root := "."
  cache := some ⟨"c"⟩
  formatter := some (shellFormatter "exit 3")

/-- The entry of the cache is no text, and no directory can be made. -/
def failingState : Watched where
  world := shellWorld [(["c"], .dir), (["dependency-flowchart-hash", "c"], .file ⟨#[0xFF]⟩)]
  refuses
    | _, .createDirs _ => some ⟨.permissionDenied, 1⟩
    | _, _ => none
  events := []

/-- There is no cache, and the formatter writes over the docs file. -/
def formattingPatcher : DocsPatcher where
  root := "."
  formatter := some (shellFormatter "printf formatted > \"$1\"")

theorem sameFile_failingState : SameFile (failingPatcher.docsPath (notedDocs "See above."))
    failingState (shellWorld []).watched := by
  refine ⟨rfl, ?_, rfl, fun _ _ => rfl⟩
  rintro loc ⟨way, hway, rfl⟩
  have hsteps : Path.steps (failingPatcher.docsPath (notedDocs "See above.")) =
      [.down "R.md", .here] := by decide
  rw [hsteps, List.suffix_cons_iff, List.suffix_cons_iff, List.suffix_nil] at hway
  rcases hway with rfl | rfl | rfl <;> rfl

/-- Both formatters are started. The one fails and the other one succeeds, and all else that is
reported is the same. -/
theorem failing_formatter_alike :
    formattingPatcher.root = failingPatcher.root ∧
    formattingPatcher.compile = failingPatcher.compile ∧
    SameFile (failingPatcher.docsPath (notedDocs "See above.")) failingState
      (shellWorld []).watched ∧
    (((failingPatcher.patch (noted "See above.").flow (notedDocs "See above.") : Watch _).run
      failingState).2.events.filterMap Event.exit?).map Exit.status = [.code 3] ∧
    ((formattingPatcher.patch (noted "See above.").flow (notedDocs "See above.") : Watch _).run
      (shellWorld []).watched).1.map PatchReport.formatted = .ok true ∧
    ((formattingPatcher.patch (noted "See above.").flow (notedDocs "See above.") : Watch _).run
        (shellWorld []).watched).1.map PatchReport.core =
      ((failingPatcher.patch (noted "See above.").flow (notedDocs "See above.") : Watch _).run
        failingState).1.map PatchReport.core ∧
    ∃ own,
      failingPatcher.RewritesBy (noted "See above.").flow (notedDocs "See above.") own
        failingState ∧
      formattingPatcher.RewritesBy (noted "See above.").flow (notedDocs "See above.") own
        (shellWorld []).watched := by
  have hroot : formattingPatcher.root = failingPatcher.root := rfl
  have hcompile : formattingPatcher.compile = failingPatcher.compile := rfl
  have hfails : (((failingPatcher.patch (noted "See above.").flow (notedDocs "See above.") :
      Watch _).run failingState).2.events.filterMap Event.exit?).map Exit.status = [.code 3] := by
    decide +kernel
  have hsucceeds : ((formattingPatcher.patch (noted "See above.").flow (notedDocs "See above.") :
      Watch _).run (shellWorld []).watched).1.map PatchReport.formatted = .ok true := by
    decide +kernel
  exact ⟨hroot, hcompile, sameFile_failingState, hfails, hsucceeds,
    patch_alike _ hroot hcompile sameFile_failingState⟩

end DocsPatcher

end FolderFlow
