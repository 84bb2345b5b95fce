import FolderFlow.Proofs.Reach
import Mathlib.Data.List.Nodup
import Mathlib.Data.List.Perm.Subperm

/-!
# Every step of the search

`Walk.steps_sound` says what holds whenever the search looks at its stack, and how often it does. A
state is taken together with a log of the steps that led to it (`Walk.Logged`). The log adds nothing
to the search: every logged state has the same result (`Logged.run_eq`), and the result is logged
(`Logged.run`).

1. The folders whose edges have been followed are those that are expanded, each once, and an edge
   that has pushed its target comes from one of them (`WalkLog.Sound`). So the edges of a new folder
   have pushed nothing yet, and no edge pushes twice.
2. What edges have pushed has been taken off the stack or is still there, so there are no more runs
   of the loop than plain edges (`popped_length_le`).
-/

namespace FolderFlow

namespace Flow

/-- The plain edges, each with its place, by which edges that are alike are told apart. -/
def placedPlain (flow : Flow) : List (Edge × Nat) :=
  flow.edges.zipIdx.filter fun p => p.1.isPlain

/-- The plain edges out of a folder, each with its place. -/
def placedFrom (flow : Flow) (folder : String) : List (Edge × Nat) :=
  flow.placedPlain.filter fun p => p.1.source == folder

variable {flow : Flow} {folder : String}

theorem nodup_placedPlain (flow : Flow) : flow.placedPlain.Nodup := by
  refine List.Nodup.filter _ (List.Nodup.of_map Prod.snd ?_)
  rw [List.zipIdx_map_snd]
  exact List.nodup_range'

theorem map_fst_placedPlain (flow : Flow) :
    flow.placedPlain.map Prod.fst = flow.edges.filter Edge.isPlain := by
  calc flow.placedPlain.map Prod.fst
      = (flow.edges.zipIdx.map Prod.fst).filter Edge.isPlain := by rw [List.filter_map]; rfl
    _ = flow.edges.filter Edge.isPlain := by rw [List.zipIdx_map_fst]

theorem length_placedPlain (flow : Flow) :
    flow.placedPlain.length = (flow.edges.filter Edge.isPlain).length := by
  rw [← map_fst_placedPlain, List.length_map]

theorem mem_placedFrom {p : Edge × Nat} :
    p ∈ flow.placedFrom folder ↔ p ∈ flow.placedPlain ∧ p.1.source = folder := by
  rw [placedFrom, List.mem_filter, beq_iff_eq]

theorem nodup_placedFrom (flow : Flow) (folder : String) : (flow.placedFrom folder).Nodup :=
  flow.nodup_placedPlain.filter _

/-- These edges push what the search pushes for the folder. -/
theorem map_target_placedFrom (flow : Flow) (folder : String) :
    (flow.placedFrom folder).map (fun p => p.1.target) = flow.plainTargets folder := by
  calc (flow.placedFrom folder).map (fun p => p.1.target)
      = ((flow.placedPlain.map Prod.fst).filter fun e => e.source == folder).map Edge.target := by
        rw [List.filter_map, List.map_map]; rfl
    _ = flow.plainTargets folder := by
        rw [map_fst_placedPlain, List.filter_filter, plainTargets]

end Flow

/-- What the search has done, the last of it in front. -/
structure WalkLog where
  /-- The folders that were taken off the stack, one for each run of the loop. -/
  popped : List String
  /-- The folders whose edges were followed; those of the root are followed before the loop. -/
  opened : List String
  /-- The edges that have pushed their targets. -/
  pushed : List (Edge × Nat)

namespace Walk

/-- The search looks at its stack in state `w`, and `log` is what it has done until then. -/
inductive Logged (flow : Flow) (root : String) : Walk → WalkLog → Prop
  | start : Logged flow root (start flow root)
      { popped := [], opened := [root], pushed := flow.placedFrom root }
  /-- A folder that has been expanded is taken off the stack. -/
  | skip {w : Walk} {log : WalkLog} {folder : String} {rest : List String} :
      Logged flow root w log → w.pending = folder :: rest → folder ∈ w.expanded →
      Logged flow root (w.visit flow folder rest) { log with popped := folder :: log.popped }
  /-- A new folder is taken off the stack, and its plain edges push their targets. -/
  | expand {w : Walk} {log : WalkLog} {folder : String} {rest : List String} :
      Logged flow root w log → w.pending = folder :: rest → folder ∉ w.expanded →
      Logged flow root (w.visit flow folder rest) {
        popped := folder :: log.popped
        opened := folder :: log.opened
        pushed := flow.placedFrom folder ++ log.pushed }

end Walk

/-! ## What the log tells -/

/-- How the log and the state hang together. -/
structure WalkLog.Sound (flow : Flow) (w : Walk) (log : WalkLog) : Prop where
  opened_eq : log.opened = w.expanded
  opened_nodup : log.opened.Nodup
  pushed_nodup : log.pushed.Nodup
  pushed_plain : ∀ p ∈ log.pushed, p ∈ flow.placedPlain
  pushed_source : ∀ p ∈ log.pushed, p.1.source ∈ log.opened
  /-- What was pushed has been taken off the stack or is still there. -/
  balance : (log.pushed.map fun p => p.1.target).Perm (log.popped ++ w.pending)

namespace Walk

open WalkLog (Sound)
open scoped List

variable {flow : Flow} {root folder : String} {w : Walk} {log : WalkLog} {rest : List String}

theorem sound_start (flow : Flow) (root : String) : Sound flow (start flow root)
    { popped := [], opened := [root], pushed := flow.placedFrom root } where
  opened_eq := rfl
  opened_nodup := List.nodup_singleton root
  pushed_nodup := flow.nodup_placedFrom root
  pushed_plain := fun _ hp => (Flow.mem_placedFrom.mp hp).1
  pushed_source := fun _ hp => List.mem_singleton.mpr (Flow.mem_placedFrom.mp hp).2
  balance := by
    rw [flow.map_target_placedFrom, List.nil_append]
    exact (List.reverse_perm _).symm

theorem sound_skip (h : Sound flow w log) (hp : w.pending = folder :: rest)
    (hold : folder ∈ w.expanded) :
    Sound flow (w.visit flow folder rest) { log with popped := folder :: log.popped } := by
  rw [visit_of_mem hold]
  refine ⟨h.opened_eq, h.opened_nodup, h.pushed_nodup, h.pushed_plain, h.pushed_source, ?_⟩
  have hbalance := h.balance
  rw [hp] at hbalance
  exact hbalance.trans List.perm_middle

theorem sound_expand (h : Sound flow w log) (hp : w.pending = folder :: rest)
    (hnew : folder ∉ w.expanded) :
    Sound flow (w.visit flow folder rest) {
      popped := folder :: log.popped
      opened := folder :: log.opened
      pushed := flow.placedFrom folder ++ log.pushed } := by
  have hunopened : folder ∉ log.opened := h.opened_eq ▸ hnew
  rw [visit_of_notMem hnew]
  refine ⟨?_, h.opened_nodup.cons hunopened, ?_, ?_, ?_, ?_⟩
  · exact congrArg (folder :: ·) h.opened_eq
  · -- an edge of the new folder would have an opened source, had it pushed before
    refine (flow.nodup_placedFrom folder).append h.pushed_nodup fun p hfrom hpushed => ?_
    have hsource := h.pushed_source p hpushed
    rw [(Flow.mem_placedFrom.mp hfrom).2] at hsource
    exact hunopened hsource
  · intro p hp
    rcases List.mem_append.mp hp with hfrom | hpushed
    · exact (Flow.mem_placedFrom.mp hfrom).1
    · exact h.pushed_plain p hpushed
  · intro p hp
    rcases List.mem_append.mp hp with hfrom | hpushed
    · exact List.mem_cons.mpr (Or.inl (Flow.mem_placedFrom.mp hfrom).2)
    · exact List.mem_cons_of_mem _ (h.pushed_source p hpushed)
  · have hbalance := h.balance
    rw [hp] at hbalance
    rw [List.map_append, flow.map_target_placedFrom]
    calc flow.plainTargets folder ++ log.pushed.map (fun p => p.1.target)
      _ ~ (flow.plainTargets folder).reverse ++ (log.popped ++ folder :: rest) :=
        (List.reverse_perm _).symm.append hbalance
      _ ~ (flow.plainTargets folder).reverse ++ (folder :: log.popped ++ rest) :=
        List.perm_middle.append_left _
      _ ~ folder :: log.popped ++ ((flow.plainTargets folder).reverse ++ rest) :=
        List.perm_append_comm_assoc _ _ _

namespace Logged

theorem sound (h : Logged flow root w log) : Sound flow w log := by
  induction h with
  | start => exact sound_start flow root
  | skip _ hp hold ih => exact sound_skip ih hp hold
  | expand _ hp hnew ih => exact sound_expand ih hp hnew

theorem inv (h : Logged flow root w log) : w.Inv flow root := by
  induction h with
  | start => exact inv_start flow root
  | skip _ hp _ ih => exact inv_visit ih hp
  | expand _ hp _ ih => exact inv_visit ih hp

end Logged

/-- Every run of the loop takes off the stack what a plain edge of its own has pushed. -/
theorem popped_length_le (h : Sound flow w log) :
    log.popped.length + w.pending.length ≤ (flow.edges.filter Edge.isPlain).length := by
  have hpushed : log.pushed.length ≤ flow.placedPlain.length :=
    (List.subperm_of_subset h.pushed_nodup h.pushed_plain).length_le
  have hbalance := h.balance.length_eq
  rw [List.length_map, List.length_append] at hbalance
  rw [← flow.length_placedPlain]
  omega

/-! ## Logs and the search -/

theorem run_of_pending (hp : w.pending = folder :: rest) :
    w.run flow = (w.visit flow folder rest).run flow := by
  rw [run]
  split
  · rename_i hnil
    simp [hnil] at hp
  · rename_i folder' rest' hp'
    obtain ⟨rfl, rfl⟩ := List.cons.inj (hp.symm.trans hp')
    rfl

namespace Logged

/-- A logged state is one that the search goes through: it has the same result. -/
theorem run_eq (h : Logged flow root w log) : w.run flow = (Walk.start flow root).run flow := by
  induction h with
  | start => rfl
  | skip _ hp _ ih => rw [← ih, run_of_pending hp]
  | expand _ hp _ ih => rw [← ih, run_of_pending hp]

/-- Whatever the search does next is logged, too. -/
theorem visit (h : Logged flow root w log) (hp : w.pending = folder :: rest) :
    ∃ log', Logged flow root (w.visit flow folder rest) log' := by
  by_cases hmem : folder ∈ w.expanded
  · exact ⟨_, h.skip hp hmem⟩
  · exact ⟨_, h.expand hp hmem⟩

theorem run (h : Logged flow root w log) : ∃ log', Logged flow root (w.run flow) log' := by
  fun_induction Walk.run flow w generalizing log with
  | case1 w hnil => exact ⟨log, h⟩
  | case2 w folder rest hp _ ih =>
    obtain ⟨log', h'⟩ := h.visit hp
    exact ih h'

end Logged

/-- **The search, step by step.** Whenever the search for a root looks at its stack:

* what waits and what has been expanded, the root apart, is allowed and lies at the end of a path of
  plain edges from the root;
* a plain edge out of an expanded folder has an allowed target, which has been expanded or waits;
* what is allowed is the target of an edge of the root or lies at the end of such a path;
* no folder has been opened twice, no edge has pushed its target twice, and what was pushed is what
  was taken off the stack and what waits.

So the loop is run at most once for each plain edge, until nothing waits. -/
theorem steps_sound (flow : Flow) (root : String) :
    (∀ w log, Logged flow root w log →
      (∀ f ∈ w.pending, f ∈ w.allowed ∧ flow.PlainPath root f) ∧
      (∀ f ∈ w.expanded, f ≠ root → f ∈ w.allowed ∧ flow.PlainPath root f) ∧
      (∀ e ∈ flow.edges, e.isPlain = true → e.source ∈ w.expanded →
        e.target ∈ w.allowed ∧ (e.target ∈ w.expanded ∨ e.target ∈ w.pending)) ∧
      (∀ f ∈ w.allowed, flow.HasEdge root f ∨ flow.PlainPath root f) ∧
      (log.opened = w.expanded ∧ log.opened.Nodup) ∧
      (log.pushed.Nodup ∧ log.pushed ⊆ flow.placedPlain) ∧
      (log.pushed.map fun p => p.1.target).Perm (log.popped ++ w.pending) ∧
      log.popped.length ≤ (flow.edges.filter Edge.isPlain).length ∧
      w.run flow = (start flow root).run flow) ∧
    ∃ w log, Logged flow root w log ∧ w.pending = [] ∧ flow.allowedImports root = w.allowed := by
  refine ⟨fun w log h => ?_, ?_⟩
  · have hinv := h.inv
    have hsound := h.sound
    refine ⟨hinv.pending, ?_, ?_, hinv.sound, ⟨hsound.opened_eq, hsound.opened_nodup⟩,
      ⟨hsound.pushed_nodup, hsound.pushed_plain⟩, hsound.balance, ?_, h.run_eq⟩
    · intro f hf hne
      exact (hinv.expanded f hf).resolve_left hne
    · intro e he hplain hsource
      exact hinv.followed e.source hsource e.target ⟨e, he, hplain, rfl, rfl⟩
    · exact Nat.le_trans (Nat.le_add_right _ _) (popped_length_le hsound)
  · have hstart : Logged flow root (start flow root) _ := .start
    obtain ⟨log, h⟩ := hstart.run
    exact ⟨_, log, h, (inv_run (inv_start flow root)).2, rfl⟩

/-- A cycle with a doubled edge and an edge from a folder to itself. -/
def doubledCycle : Flow where
  edges := [{ source := "a", target := "b" }, { source := "a", target := "b" },
    { source := "b", target := "a" }, { source := "b", target := "b" }]

/-- The search for `a` runs the loop four times, once for each of the four edges. -/
theorem doubledCycle_steps :
    ∃ w log, Logged doubledCycle "a" w log ∧ w.pending = [] ∧ log.popped = ["b", "a", "b", "b"] ∧
      log.popped.length ≤ (doubledCycle.edges.filter Edge.isPlain).length ∧
      (doubledCycle.edges.filter Edge.isPlain).length = 4 ∧
      log.opened.Nodup ∧ log.pushed.Nodup ∧
      ("b" ∈ w.expanded ∧ "b" ≠ "a" ∧ doubledCycle.PlainPath "a" "b") ∧
      ("a" ∈ w.allowed ∧ (doubledCycle.HasEdge "a" "a" ∨ doubledCycle.PlainPath "a" "a")) := by
  let first := (start doubledCycle "a").visit doubledCycle "b" ["b"]
  let second := first.visit doubledCycle "b" ["a", "b"]
  let third := second.visit doubledCycle "a" ["b"]
  have hfirst := Logged.start.expand (by decide : (start doubledCycle "a").pending = ["b", "b"])
    (by decide)
  have hsecond := hfirst.skip (by decide : first.pending = ["b", "a", "b"]) (by decide)
  have hthird := hsecond.skip (by decide : second.pending = ["a", "b"]) (by decide)
  have hlast := hthird.skip (by decide : third.pending = ["b"]) (by decide)
  obtain ⟨-, hexpanded, -, hallowed, hopened, hpushed, -, hruns, -⟩ :=
    (steps_sound doubledCycle "a").1 _ _ hlast
  refine ⟨_, _, hlast, by decide, rfl, hruns, by decide, hopened.2, hpushed.1, ?_, ?_⟩
  · have hb : "b" ∈ (third.visit doubledCycle "b" []).expanded := by decide
    exact ⟨hb, by decide, (hexpanded "b" hb (by decide)).2⟩
  · have ha : "a" ∈ (third.visit doubledCycle "b" []).allowed := by decide
    exact ⟨ha, hallowed "a" ha⟩

end Walk

end FolderFlow
