import FolderFlow.Flow.Reach
import Mathlib.Logic.Relation
import Mathlib.Tactic.Tauto

/-!
# The search for allowed folders is exact

`disallowedImports_exact`: what a folder may not import is what neither one of its own edges nor a
path of plain edges leads to, on every flow.

1. `Walk.Inv` holds before the first step (`inv_start`) and is kept by every step (`inv_visit`), so
   it holds when the stack is empty (`inv_run`).
2. With an empty stack the expanded folders are closed under plain edges, so every path of plain
   edges from the root stays among them (`Inv.mem_of_plainPath`).
-/

namespace FolderFlow

namespace Flow

/-! ## Paths of a flow -/

/-- Some edge leads from `a` to `b`, plain or for its source alone. -/
def HasEdge (flow : Flow) (a b : String) : Prop :=
  ∃ e ∈ flow.edges, e.source = a ∧ e.target = b

/-- A plain edge leads from `a` to `b`. -/
def PlainStep (flow : Flow) (a b : String) : Prop :=
  ∃ e ∈ flow.edges, e.isPlain = true ∧ e.source = a ∧ e.target = b

/-- A path of at least one edge, all of them plain, leads from `a` to `b`. -/
def PlainPath (flow : Flow) : String → String → Prop :=
  Relation.TransGen flow.PlainStep

/-- The flow lets `root` import from `folder`. -/
def MayImport (flow : Flow) (root folder : String) : Prop :=
  flow.HasEdge root folder ∨ flow.PlainPath root folder

variable {flow : Flow} {root folder a b : String}

theorem mem_targets : b ∈ flow.targets a ↔ flow.HasEdge a b := by
  simp [targets, HasEdge, and_assoc]

theorem mem_plainTargets : b ∈ flow.plainTargets a ↔ flow.PlainStep a b := by
  unfold plainTargets PlainStep
  simp only [List.mem_map, List.mem_filter, Bool.and_eq_true, beq_iff_eq]
  constructor
  · rintro ⟨e, ⟨he, hs, hp⟩, ht⟩
    exact ⟨e, he, hp, hs, ht⟩
  · rintro ⟨e, he, hp, hs, ht⟩
    exact ⟨e, ⟨he, hs, hp⟩, ht⟩

theorem PlainStep.hasEdge (h : flow.PlainStep a b) : flow.HasEdge a b := by
  obtain ⟨e, he, -, hs, ht⟩ := h
  exact ⟨e, he, hs, ht⟩

end Flow

namespace Walk

variable {flow : Flow} {root folder : String} {w : Walk} {rest : List String}

theorem visit_of_mem (h : folder ∈ w.expanded) :
    w.visit flow folder rest = { w with pending := rest } :=
  if_pos (List.contains_iff_mem.mpr h)

theorem visit_of_notMem (h : folder ∉ w.expanded) : w.visit flow folder rest =
    { allowed := w.allowed ++ flow.plainTargets folder
      expanded := folder :: w.expanded
      pending := (flow.plainTargets folder).reverse ++ rest } :=
  if_neg (mt List.contains_iff_mem.mp h)

/-! ## The invariant of the search -/

/-- What holds whenever the search looks at its stack. -/
structure Inv (flow : Flow) (root : String) (w : Walk) : Prop where
  root_expanded : root ∈ w.expanded
  /-- What waits has been reached by plain edges and is allowed. -/
  pending : ∀ f ∈ w.pending, f ∈ w.allowed ∧ flow.PlainPath root f
  /-- What has been expanded has been reached so too, the root apart. -/
  expanded : ∀ f ∈ w.expanded, f = root ∨ (f ∈ w.allowed ∧ flow.PlainPath root f)
  /-- A plain edge out of an expanded folder has been followed. -/
  followed : ∀ a ∈ w.expanded, ∀ b, flow.PlainStep a b →
    b ∈ w.allowed ∧ (b ∈ w.expanded ∨ b ∈ w.pending)
  direct : ∀ f, flow.HasEdge root f → f ∈ w.allowed
  sound : ∀ f ∈ w.allowed, flow.MayImport root f

theorem inv_start (flow : Flow) (root : String) : (start flow root).Inv flow root where
  root_expanded := List.mem_singleton_self root
  pending := by
    intro f hf
    have hstep := Flow.mem_plainTargets.mp (List.mem_reverse.mp hf)
    exact ⟨Flow.mem_targets.mpr hstep.hasEdge, .single hstep⟩
  expanded := fun f hf => Or.inl (List.mem_singleton.mp hf)
  followed := by
    intro a ha b hb
    rw [List.mem_singleton.mp ha] at hb
    exact ⟨Flow.mem_targets.mpr hb.hasEdge,
      Or.inr (List.mem_reverse.mpr (Flow.mem_plainTargets.mpr hb))⟩
  direct := fun f hf => Flow.mem_targets.mpr hf
  sound := fun f hf => Or.inl (Flow.mem_targets.mp hf)

/-- A folder that has been expanded before is only taken off the stack. -/
theorem inv_skip (h : w.Inv flow root) (hp : w.pending = folder :: rest)
    (hold : folder ∈ w.expanded) : Inv flow root { w with pending := rest } where
  root_expanded := h.root_expanded
  pending := fun f hf => h.pending f (hp ▸ List.mem_cons_of_mem _ hf)
  expanded := h.expanded
  followed := by
    intro a ha b hb
    obtain ⟨hallowed, hexp | hpend⟩ := h.followed a ha b hb
    · exact ⟨hallowed, Or.inl hexp⟩
    · rw [hp] at hpend
      rcases List.mem_cons.mp hpend with rfl | hrest
      · exact ⟨hallowed, Or.inl hold⟩
      · exact ⟨hallowed, Or.inr hrest⟩
  direct := h.direct
  sound := h.sound

/-- The plain edges of a new folder are followed. -/
theorem inv_expand (h : w.Inv flow root) (hp : w.pending = folder :: rest) :
    Inv flow root {
      allowed := w.allowed ++ flow.plainTargets folder
      expanded := folder :: w.expanded
      pending := (flow.plainTargets folder).reverse ++ rest } := by
  have htop : folder ∈ w.pending := hp ▸ List.mem_cons_self
  obtain ⟨hallowed, hpath⟩ := h.pending folder htop
  have hnext : ∀ f ∈ flow.plainTargets folder, flow.PlainPath root f :=
    fun f hf => hpath.tail (Flow.mem_plainTargets.mp hf)
  refine ⟨List.mem_cons_of_mem _ h.root_expanded, ?_, ?_, ?_, ?_, ?_⟩
  · intro f hf
    rcases List.mem_append.mp hf with hnew | hrest
    · have hnew := List.mem_reverse.mp hnew
      exact ⟨List.mem_append_right _ hnew, hnext f hnew⟩
    · obtain ⟨hmem, hf⟩ := h.pending f (hp ▸ List.mem_cons_of_mem _ hrest)
      exact ⟨List.mem_append_left _ hmem, hf⟩
  · intro f hf
    rcases List.mem_cons.mp hf with rfl | hold
    · exact Or.inr ⟨List.mem_append_left _ hallowed, hpath⟩
    · exact (h.expanded f hold).imp_right fun ⟨hmem, hf⟩ => ⟨List.mem_append_left _ hmem, hf⟩
  · intro a ha b hb
    rcases List.mem_cons.mp ha with rfl | hold
    · have hb := Flow.mem_plainTargets.mpr hb
      exact ⟨List.mem_append_right _ hb,
        Or.inr (List.mem_append_left _ (List.mem_reverse.mpr hb))⟩
    · obtain ⟨hmem, hexp | hpend⟩ := h.followed a hold b hb
      · exact ⟨List.mem_append_left _ hmem, Or.inl (List.mem_cons_of_mem _ hexp)⟩
      · rw [hp] at hpend
        rcases List.mem_cons.mp hpend with rfl | hrest
        · exact ⟨List.mem_append_left _ hmem, Or.inl List.mem_cons_self⟩
        · exact ⟨List.mem_append_left _ hmem, Or.inr (List.mem_append_right _ hrest)⟩
  · exact fun f hf => List.mem_append_left _ (h.direct f hf)
  · intro f hf
    rcases List.mem_append.mp hf with hold | hnew
    · exact h.sound f hold
    · exact Or.inr (hnext f hnew)

/-- One step keeps the invariant. -/
theorem inv_visit (h : w.Inv flow root) (hp : w.pending = folder :: rest) :
    (w.visit flow folder rest).Inv flow root := by
  by_cases hold : folder ∈ w.expanded
  · rw [visit_of_mem hold]
    exact inv_skip h hp hold
  · rw [visit_of_notMem hold]
    exact inv_expand h hp

/-- The whole search keeps the invariant and empties the stack. -/
theorem inv_run (h : w.Inv flow root) :
    (w.run flow).Inv flow root ∧ (w.run flow).pending = [] := by
  fun_induction run flow w with
  | case1 w hnil => exact ⟨h, hnil⟩
  | case2 w folder rest hp _ ih => exact ih (inv_visit h hp)

/-- Once nothing waits, a path of plain edges from the root leads to expanded folders only. -/
theorem Inv.mem_of_plainPath (h : w.Inv flow root) (hdone : w.pending = [])
    (hpath : flow.PlainPath root folder) : folder ∈ w.allowed ∧ folder ∈ w.expanded := by
  have hclosed : ∀ a ∈ w.expanded, ∀ b, flow.PlainStep a b → b ∈ w.allowed ∧ b ∈ w.expanded := by
    intro a ha b hb
    obtain ⟨hallowed, hexp | hpend⟩ := h.followed a ha b hb
    · exact ⟨hallowed, hexp⟩
    · rw [hdone] at hpend
      exact absurd hpend List.not_mem_nil
  induction hpath with
  | single hstep => exact hclosed root h.root_expanded _ hstep
  | tail _ hstep ih => exact hclosed _ ih.2 _ hstep

end Walk

namespace Flow

variable {flow : Flow} {root folder : String}

/-! ## The result of the search -/

theorem mem_allowedImports : folder ∈ flow.allowedImports root ↔ flow.MayImport root folder := by
  obtain ⟨hinv, hdone⟩ := Walk.inv_run (Walk.inv_start flow root)
  constructor
  · exact hinv.sound folder
  · rintro (hedge | hpath)
    · exact hinv.direct folder hedge
    · exact (hinv.mem_of_plainPath hdone hpath).1

instance (flow : Flow) (root folder : String) : Decidable (flow.MayImport root folder) :=
  decidable_of_iff (folder ∈ flow.allowedImports root) mem_allowedImports

theorem disallowedImports_eq (flow : Flow) (folders : FolderSet) (root : String) :
    flow.disallowedImports folders root =
      folders.toList.filter fun f => decide (f ≠ root ∧ ¬ flow.MayImport root f) := by
  unfold disallowedImports
  refine List.filter_congr fun f _ => ?_
  rw [Bool.eq_iff_iff]
  simp [mem_allowedImports]

theorem mem_disallowedImports {folders : FolderSet} :
    folder ∈ flow.disallowedImports folders root ↔
      folder ∈ folders ∧ folder ≠ root ∧ ¬ flow.MayImport root folder := by
  rw [disallowedImports_eq]
  simp [FolderSet.mem_def]

/-! ## Edges for their source alone -/

/-- A flow with one more edge, somewhere among the others, that is for its source alone. -/
def withSelfOnly (before after : List Edge) (source target : String) (options : EdgeOptions) :
    Flow where
  edges := before ++ ⟨source, target, { options with selfOnly := true }⟩ :: after

section SelfOnly

variable {before after : List Edge} {source target : String} {options : EdgeOptions}

theorem mem_withSelfOnly {e : Edge} :
    e ∈ (withSelfOnly before after source target options).edges ↔
      e ∈ before ++ after ∨ e = ⟨source, target, { options with selfOnly := true }⟩ := by
  simp only [withSelfOnly, List.mem_append, List.mem_cons]
  tauto

theorem plainStep_withSelfOnly :
    (withSelfOnly before after source target options).PlainStep =
      (Flow.mk (before ++ after)).PlainStep := by
  funext a b
  refine propext ⟨?_, ?_⟩
  · rintro ⟨e, he, hplain, hends⟩
    rcases mem_withSelfOnly.mp he with he | rfl
    · exact ⟨e, he, hplain, hends⟩
    · exact absurd hplain (by simp [Edge.isPlain])
  · rintro ⟨e, he, hplain, hends⟩
    exact ⟨e, mem_withSelfOnly.mpr (Or.inl he), hplain, hends⟩

theorem hasEdge_withSelfOnly :
    (withSelfOnly before after source target options).HasEdge root folder ↔
      (Flow.mk (before ++ after)).HasEdge root folder ∨ (source = root ∧ target = folder) := by
  constructor
  · rintro ⟨e, he, hends⟩
    rcases mem_withSelfOnly.mp he with he | rfl
    · exact Or.inl ⟨e, he, hends⟩
    · exact Or.inr hends
  · rintro (⟨e, he, hends⟩ | hends)
    · exact ⟨e, mem_withSelfOnly.mpr (Or.inl he), hends⟩
    · exact ⟨_, mem_withSelfOnly.mpr (Or.inr rfl), hends⟩

/-- Such an edge lets its source import its target, and changes nothing else. -/
theorem mayImport_withSelfOnly :
    (withSelfOnly before after source target options).MayImport root folder ↔
      (Flow.mk (before ++ after)).MayImport root folder ∨ (source = root ∧ target = folder) := by
  unfold MayImport PlainPath
  rw [plainStep_withSelfOnly, hasEdge_withSelfOnly]
  tauto

end SelfOnly

/-- **Exactness.** The search ends on every flow, cycles and repeated edges included, and lists the
members of `folders` in their order, without repeats, to which neither an edge of the root nor a
path of plain edges from it leads. An edge for its source alone takes its target off the list of
that source and bears on nothing else, wherever it stands among the edges. -/
theorem disallowedImports_exact (flow : Flow) (folders : FolderSet) (root : String) :
    ((flow.disallowedImports folders root).Sublist folders.toList ∧
      (flow.disallowedImports folders root).Nodup ∧
      ∀ f, f ∈ flow.disallowedImports folders root ↔
        f ∈ folders ∧ f ≠ root ∧ ¬ flow.HasEdge root f ∧ ¬ flow.PlainPath root f) ∧
    ∀ (before after : List Edge) (source target : String) (options : EdgeOptions),
      (withSelfOnly before after source target options).disallowedImports folders root =
        ((Flow.mk (before ++ after)).disallowedImports folders root).filter
          fun f => !(source == root && target == f) := by
  refine ⟨⟨?_, ?_, ?_⟩, ?_⟩
  · exact List.filter_sublist
  · exact folders.nodup.filter _
  · intro f
    rw [mem_disallowedImports, MayImport, not_or]
  · intro before after source target options
    rw [disallowedImports_eq, disallowedImports_eq, List.filter_filter]
    refine List.filter_congr fun f _ => ?_
    rw [Bool.eq_iff_iff]
    simp only [mayImport_withSelfOnly, decide_eq_true_eq, Bool.and_eq_true, Bool.not_eq_true',
      Bool.and_eq_false_iff, beq_eq_false_iff_ne]
    tauto

end Flow

end FolderFlow
