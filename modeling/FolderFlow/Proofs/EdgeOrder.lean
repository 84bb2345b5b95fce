import FolderFlow.Flow.Hash
import FolderFlow.Proofs.JsonText
import FolderFlow.Proofs.Overrides
import FolderFlow.Proofs.RoundTrip

/-!
# The hash and the order of the edges

Edges are sorted by their ends, and edges with the same ends keep their order. So what is sorted is
known by the edges between each two folders (`Flow.sortedEdges_eq_iff`), and as different edges are
written differently, so is the text that is hashed (`Flow.canonicalText_eq_iff`). The order of the
edges therefore counts exactly where two edges have the same ends but different options
(`Flow.order_ignored_iff`).
-/

namespace FolderFlow

/-! ## The order of edges -/

namespace Edge

theorem atMost_trans (a b c : Edge) (hab : atMost a b = true) (hbc : atMost b c = true) :
    atMost a c = true := by
  unfold atMost at *
  by_cases hfirst : a.source = b.source
  · rw [if_pos hfirst] at hab
    rw [hfirst]
    by_cases hsecond : b.source = c.source
    · rw [if_pos hsecond] at hbc ⊢
      exact Text.atMost_trans hab hbc
    · rw [if_neg hsecond] at hbc ⊢
      exact hbc
  · rw [if_neg hfirst] at hab
    by_cases hsecond : b.source = c.source
    · rw [← hsecond, if_neg hfirst]
      exact hab
    · rw [if_neg hsecond] at hbc
      have hne : a.source ≠ c.source := by
        intro heq
        rw [heq] at hab
        exact hsecond (Text.atMost_antisymm hbc hab)
      rw [if_neg hne]
      exact Text.atMost_trans hab hbc

theorem atMost_total (a b : Edge) : (atMost a b || atMost b a) = true := by
  rw [Bool.or_eq_true]
  unfold atMost
  by_cases h : a.source = b.source
  · rw [if_pos h, if_pos h.symm]
    exact Text.atMostChars_total _ _
  · rw [if_neg h, if_neg (Ne.symm h)]
    exact Text.atMostChars_total _ _

/-- The edges lead from the same folder to the same folder. -/
def Parallel (a b : Edge) : Prop :=
  a.source = b.source ∧ a.target = b.target

theorem Parallel.eq {a b : Edge} (h : a.Parallel b) (hoptions : a.options = b.options) : a = b := by
  obtain ⟨source, target, options⟩ := a
  obtain ⟨source', target', options'⟩ := b
  obtain ⟨rfl, rfl⟩ : source = source' ∧ target = target' := h
  obtain rfl : options = options' := hoptions
  rfl

theorem Parallel.atMost {a b : Edge} (h : a.Parallel b) : Edge.atMost a b = true := by
  rw [Edge.atMost, if_pos h.1, h.2]
  exact Text.atMostChars_refl _

/-- Edges that come before each other have the same ends. -/
theorem parallel_of_atMost {a b : Edge} (hab : Edge.atMost a b = true)
    (hba : Edge.atMost b a = true) : a.Parallel b := by
  unfold Edge.atMost at *
  by_cases h : a.source = b.source
  · rw [if_pos h] at hab
    rw [if_pos h.symm] at hba
    exact ⟨h, Text.atMost_antisymm hab hba⟩
  · rw [if_neg h] at hab
    rw [if_neg (Ne.symm h)] at hba
    exact absurd (Text.atMost_antisymm hab hba) h

end Edge

/-! ## Edges between two folders -/

namespace Flow

variable {flow flow' : Flow} {edges edges' : List Edge} {e e' : Edge} {x y : String}

/-- The edges of the list that lead from `x` to `y`, in their order. -/
def leading (edges : List Edge) (x y : String) : List Edge :=
  edges.filter fun e => e.source = x ∧ e.target = y

/-- The edges that lead from `x` to `y`, in their order. -/
def between (flow : Flow) (x y : String) : List Edge :=
  leading flow.edges x y

theorem mem_leading : e ∈ leading edges x y ↔ e ∈ edges ∧ e.source = x ∧ e.target = y := by
  rw [leading, List.mem_filter, decide_eq_true_eq]

theorem leading_cons_self (e : Edge) (edges : List Edge) :
    leading (e :: edges) e.source e.target = e :: leading edges e.source e.target :=
  List.filter_cons_of_pos (decide_eq_true ⟨rfl, rfl⟩)

theorem leading_cons_of_not (h : ¬ (e.source = x ∧ e.target = y)) :
    leading (e :: edges) x y = leading edges x y :=
  List.filter_cons_of_neg (by simpa using h)

/-- Sorting leaves the edges between two folders in their order. -/
theorem leading_sortedEdges (flow : Flow) (x y : String) :
    leading flow.sortedEdges x y = flow.between x y := by
  have hsorted : (flow.between x y).Pairwise fun a b => Edge.atMost a b = true := by
    refine List.pairwise_of_forall_mem_list fun a ha b hb => ?_
    obtain ⟨-, hsource, htarget⟩ := mem_leading.mp ha
    obtain ⟨-, hsource', htarget'⟩ := mem_leading.mp hb
    exact Edge.Parallel.atMost ⟨hsource.trans hsource'.symm, htarget.trans htarget'.symm⟩
  have hsub : (flow.between x y).Sublist flow.sortedEdges :=
    List.sublist_mergeSort Edge.atMost_trans Edge.atMost_total hsorted List.filter_sublist
  have hperm : (leading flow.sortedEdges x y).Perm (flow.between x y) :=
    (List.mergeSort_perm flow.edges Edge.atMost).filter _
  have hkept : leading (flow.between x y) x y = flow.between x y :=
    List.filter_eq_self.mpr fun e he => decide_eq_true (mem_leading.mp he).2
  have hsub' : (flow.between x y).Sublist (leading flow.sortedEdges x y) := by
    have h := hsub.filter fun e => e.source = x ∧ e.target = y
    rwa [← leading, hkept] at h
  exact (hsub'.eq_of_length hperm.length_eq.symm).symm

/-- A sorted list is known by the edges between each two folders. -/
theorem eq_of_leading_eq (h : edges.Pairwise fun a b => Edge.atMost a b = true)
    (h' : edges'.Pairwise fun a b => Edge.atMost a b = true)
    (hsame : ∀ x y, leading edges x y = leading edges' x y) : edges = edges' := by
  -- an edge of one list stands in the other
  have hmem : ∀ {l l' : List Edge}, (∀ x y, leading l x y = leading l' x y) → ∀ e ∈ l, e ∈ l' := by
    intro l l' hsame e he
    have hin : e ∈ leading l e.source e.target := mem_leading.mpr ⟨he, rfl, rfl⟩
    rw [hsame] at hin
    exact (mem_leading.mp hin).1
  induction edges generalizing edges' with
  | nil =>
    cases edges' with
    | nil => rfl
    | cons b rest =>
      exact absurd (hmem (fun x y => (hsame x y).symm) b List.mem_cons_self) List.not_mem_nil
  | cons a rest ih =>
    cases edges' with
    | nil => exact absurd (hmem hsame a List.mem_cons_self) List.not_mem_nil
    | cons b rest' =>
      obtain ⟨hfirst, hrest⟩ := List.pairwise_cons.mp h
      obtain ⟨hfirst', hrest'⟩ := List.pairwise_cons.mp h'
      have hparallel : a.Parallel b := by
        have ha := hmem hsame a List.mem_cons_self
        have hb := hmem (fun x y => (hsame x y).symm) b List.mem_cons_self
        rcases List.mem_cons.mp ha with rfl | ha
        · exact ⟨rfl, rfl⟩
        · rcases List.mem_cons.mp hb with rfl | hb
          · exact ⟨rfl, rfl⟩
          · exact Edge.parallel_of_atMost (hfirst b hb) (hfirst' a ha)
      have hheads := hsame a.source a.target
      rw [leading_cons_self, hparallel.1, hparallel.2, leading_cons_self] at hheads
      obtain ⟨rfl, -⟩ := List.cons.inj hheads
      congr 1
      refine ih hrest hrest' fun x y => ?_
      by_cases hends : a.source = x ∧ a.target = y
      · obtain ⟨rfl, rfl⟩ := hends
        exact (List.cons.inj hheads).2
      · have h := hsame x y
        rwa [leading_cons_of_not hends, leading_cons_of_not hends] at h

theorem sorted_sortedEdges (flow : Flow) :
    flow.sortedEdges.Pairwise fun a b => Edge.atMost a b = true :=
  List.pairwise_mergeSort Edge.atMost_trans Edge.atMost_total _

/-- Sorting forgets no more than how the edges between different folders were mixed. -/
theorem sortedEdges_eq_iff :
    flow.sortedEdges = flow'.sortedEdges ↔ ∀ x y, flow.between x y = flow'.between x y := by
  constructor
  · intro h x y
    rw [← leading_sortedEdges, ← leading_sortedEdges, h]
  · intro h
    refine eq_of_leading_eq (sorted_sortedEdges flow) (sorted_sortedEdges flow') fun x y => ?_
    rw [leading_sortedEdges, leading_sortedEdges, h]

end Flow

/-! ## The text of edges -/

namespace Json

theorem keys_ofMembers_sublist (fields : List (String × Option Json)) :
    (Members.keys (fields.filterMap fun (key, value) => value.map (key, ·))).Sublist
      (fields.map Prod.fst) := by
  induction fields with
  | nil => exact List.Sublist.slnil
  | cons field fields ih =>
    obtain ⟨key, value⟩ := field
    cases value with
    | none => exact ih.cons key
    | some j => exact ih.cons_cons key

theorem plain_ofMembers {levels : Nat} {fields : List (String × Option Json)}
    (hkeys : (fields.map Prod.fst).Nodup)
    (hvalues : ∀ field ∈ fields, ∀ j, field.2 = some j → Plain levels j) :
    Plain (levels + 1) (ofMembers fields) := by
  refine .object (hkeys.sublist (keys_ofMembers_sublist fields)) ?_
  rintro ⟨key, j⟩ hmem
  obtain ⟨field, hfield, hj⟩ := List.mem_filterMap.mp hmem
  obtain ⟨j', hj', heq⟩ := Option.map_eq_some_iff.mp hj
  obtain ⟨-, rfl⟩ := Prod.mk.inj heq
  exact hvalues field hfield j' hj'

end Json

open Json (Plain)

theorem EdgeOptions.plain_toJson (o : EdgeOptions) : Plain 1 o.toJson := by
  refine Json.plain_ofMembers (by simp) ?_
  simp only [List.forall_mem_cons, List.not_mem_nil, false_imp_iff, implies_true, and_true,
    Option.map_eq_some_iff]
  refine ⟨?_, ?_, ?_⟩
  · rintro _ ⟨label, -, rfl⟩
    exact .string 0 label
  · rintro _ ⟨description, -, rfl⟩
    exact .string 0 description
  · intro j hj
    split at hj
    · obtain rfl := Option.some.inj hj
      exact .bool 0 true
    · simp at hj

theorem EdgeOptions.toJson_injective : Function.Injective EdgeOptions.toJson := by
  intro o o' h
  obtain ⟨hlabel, hdescription, hself⟩ := o.get?_toJson
  obtain ⟨hlabel', hdescription', hself'⟩ := o'.get?_toJson
  have hstring : Function.Injective (Option.map Json.string) :=
    Option.map_injective fun _ _ => Json.string.inj
  rw [h, hlabel'] at hlabel
  rw [h, hdescription'] at hdescription
  rw [h, hself'] at hself
  obtain ⟨label, description, selfOnly⟩ := o
  obtain ⟨label', description', selfOnly'⟩ := o'
  obtain rfl := hstring hlabel
  obtain rfl := hstring hdescription
  obtain rfl : selfOnly = selfOnly' := by
    cases selfOnly <;> cases selfOnly' <;> simp_all
  rfl

theorem Edge.plain_toJson (e : Edge) : Plain 2 e.toJson := by
  refine .array fun item hitem => ?_
  rcases List.mem_append.mp hitem with hends | hoptions
  · rcases List.mem_cons.mp hends with rfl | htarget
    · exact .string 1 _
    · rw [List.mem_singleton.mp htarget]
      exact .string 1 _
  · split at hoptions
    · exact absurd hoptions List.not_mem_nil
    · rw [List.mem_singleton.mp hoptions]
      exact e.options.plain_toJson

theorem Edge.toJson_injective : Function.Injective Edge.toJson := by
  intro e e' h
  obtain ⟨source, target, options⟩ := e
  obtain ⟨source', target', options'⟩ := e'
  obtain ⟨hsource, h⟩ := List.cons.inj (Json.array.inj h)
  obtain ⟨htarget, h⟩ := List.cons.inj h
  obtain rfl := Json.string.inj hsource
  obtain rfl := Json.string.inj htarget
  congr 1
  cases hempty : options.isEmpty with
  | true =>
    cases hempty' : options'.isEmpty with
    | true => rw [EdgeOptions.isEmpty_iff.mp hempty, EdgeOptions.isEmpty_iff.mp hempty']
    | false => simp [hempty, hempty'] at h
  | false =>
    cases hempty' : options'.isEmpty with
    | true => simp [hempty, hempty'] at h
    | false =>
      simp only [hempty, hempty', Bool.false_eq_true, if_false] at h
      exact EdgeOptions.toJson_injective (List.cons.inj h).1

namespace Flow

variable {flow flow' : Flow}

/-- What is hashed tells the edges between each two folders, and nothing else. -/
theorem canonicalText_eq_iff : flow.canonicalText = flow'.canonicalText ↔
    ∀ x y, flow.between x y = flow'.between x y := by
  rw [← sortedEdges_eq_iff]
  constructor
  · intro h
    have hplain (flow : Flow) : Plain 3 (.array (flow.sortedEdges.map Edge.toJson)) := by
      refine .array fun item hitem => ?_
      obtain ⟨e, -, rfl⟩ := List.mem_map.mp hitem
      exact e.plain_toJson
    have hjson := Json.eq_of_render_eq (hplain flow) (hplain flow') h
    exact Edge.toJson_injective.list_map (Json.array.inj hjson)
  · intro h
    rw [canonicalText, canonicalText, h]

/-! ## Edges in another order -/

/-- Edges with the same ends have the same options. -/
def ParallelAlike (flow : Flow) : Prop :=
  ∀ e ∈ flow.edges, ∀ e' ∈ flow.edges, e.Parallel e' → e.options = e'.options

/-- Where parallel edges are the same, it does not matter in which order they stand. -/
theorem ParallelAlike.leading_eq (h : flow.ParallelAlike) {edges : List Edge}
    (hperm : edges.Perm flow.edges) (x y : String) : leading edges x y = flow.between x y := by
  have hfilter : (leading edges x y).Perm (flow.between x y) := hperm.filter _
  have hsame : ∀ e ∈ leading edges x y, ∀ e' ∈ flow.between x y, e = e' := by
    intro e he e' he'
    obtain ⟨hmem, hsource, htarget⟩ := mem_leading.mp he
    obtain ⟨hmem', hsource', htarget'⟩ := mem_leading.mp he'
    have hparallel : e.Parallel e' :=
      ⟨hsource.trans hsource'.symm, htarget.trans htarget'.symm⟩
    exact hparallel.eq (h e (hperm.mem_iff.mp hmem) e' hmem' hparallel)
  have hany (l : List Edge) : l.Pairwise fun _ _ => True := List.pairwise_of_forall (by simp)
  exact hfilter.eq_of_pairwise (fun e e' he he' _ _ => hsame e he e' he') (hany _) (hany _)

/-- **When the order counts.** A flow has the same text and the same hash for every order of its
edges exactly when edges with the same ends have the same options. -/
theorem order_ignored_iff (flow : Flow) :
    (∀ edges : List Edge, edges.Perm flow.edges →
      canonicalText ⟨edges⟩ = flow.canonicalText ∧ hash ⟨edges⟩ = flow.hash) ↔
    flow.ParallelAlike := by
  constructor
  · intro h e he e' he' hparallel
    -- either edge may be put in front of all others
    have hfirst := (h _ (List.perm_cons_erase he).symm).1
    have hfirst' := (h _ (List.perm_cons_erase he').symm).1
    have hheads := canonicalText_eq_iff.mp (hfirst.trans hfirst'.symm) e.source e.target
    rw [between, between, leading_cons_self, hparallel.1, hparallel.2, leading_cons_self] at hheads
    exact congrArg Edge.options (List.cons.inj hheads).1
  · intro h edges hperm
    have htext : canonicalText ⟨edges⟩ = flow.canonicalText :=
      canonicalText_eq_iff.mpr (h.leading_eq hperm)
    exact ⟨htext, by rw [hash, hash, htext]⟩

/-- Two edges from `a` to `b` with different labels. -/
def labelledTwice : Flow where
  edges := [{ source := "a", target := "b", options := { label := some "x" } },
    { source := "a", target := "b", options := { label := some "y" } }]

/-- Turned around, the two edges are hashed from another text. -/
theorem labelledTwice_turned : labelledTwice.edges.reverse.Perm labelledTwice.edges ∧
    canonicalText ⟨labelledTwice.edges.reverse⟩ ≠ labelledTwice.canonicalText := by
  refine ⟨List.reverse_perm _, fun h => ?_⟩
  have hheads := canonicalText_eq_iff.mp h "a" "b"
  exact absurd hheads (by decide)

end Flow

end FolderFlow
