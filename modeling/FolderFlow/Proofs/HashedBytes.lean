import FolderFlow.Proofs.EdgeOrder
import FolderFlow.Proofs.Splices
import Mathlib.Logic.Relation

/-!
# What the hash tells apart

The bytes that are hashed tell the edges between each two folders, with their options and in their
order, and nothing else (`Flow.hashedBytes_separate`). So two flows have the same bytes exactly when
one comes from the other by letting neighbours change places that lead between different folders
(`Flow.Reordered`), and a flow with one edge more, one less or another one has other bytes
(`Flow.Edited`).
-/

namespace FolderFlow

/-! ## Bytes -/

namespace Text

theorem toList_loop (raw : ByteArray) (i : Nat) (found : List UInt8) :
    ByteArray.toList.loop raw i found = found.reverse ++ raw.data.toList.drop i := by
  induction hleft : raw.size - i generalizing i found with
  | zero =>
    have hend : raw.data.toList.length ≤ i := by
      rw [Array.length_toList, ByteArray.size_data]
      omega
    rw [ByteArray.toList.loop, if_neg (by omega), List.drop_eq_nil_of_le hend, List.append_nil]
  | succ left ih =>
    have hlt : i < raw.data.size := by
      rw [ByteArray.size_data]
      omega
    have hget : raw.get! i = raw.data[i] := getElem!_pos raw.data i hlt
    have hdrop : raw.data.toList.drop i = raw.data[i] :: raw.data.toList.drop (i + 1) := by
      rw [List.drop_eq_getElem_cons (by simpa using hlt), Array.getElem_toList]
    rw [ByteArray.toList.loop, if_pos (by omega), ih (i + 1) _ (by omega), List.reverse_cons,
      List.append_assoc, List.singleton_append, hget, hdrop]

theorem toList_toUTF8 (s : String) : s.toUTF8.toList = bytes s :=
  toList_loop s.toUTF8 0 []

end Text

namespace Flow

variable {flow flow' : Flow} {edges edges' : List Edge} {e e' : Edge} {x y : String}

/-- The bytes of which the hash is the digest. -/
def hashedBytes (flow : Flow) : List UInt8 :=
  flow.canonicalText.toUTF8.toList

theorem hashedBytes_eq_iff : flow.hashedBytes = flow'.hashedBytes ↔
    flow.canonicalText = flow'.canonicalText := by
  rw [hashedBytes, hashedBytes, Text.toList_toUTF8, Text.toList_toUTF8]
  exact Text.bytes_injective.eq_iff

/-! ## Edges that change places -/

theorem leading_append (edges edges' : List Edge) (x y : String) :
    leading (edges ++ edges') x y = leading edges x y ++ leading edges' x y :=
  List.filter_append edges edges'

theorem leading_cons_inj (e : Edge) :
    leading (e :: edges) x y = leading (e :: edges') x y ↔
      leading edges x y = leading edges' x y := by
  by_cases h : e.source = x ∧ e.target = y
  · obtain ⟨rfl, rfl⟩ := h
    rw [leading_cons_self, leading_cons_self, List.cons_inj_right]
  · rw [leading_cons_of_not h, leading_cons_of_not h]

/-- Two neighbours change places that lead between different folders. -/
inductive Swapped : List Edge → List Edge → Prop where
  | swap (before : List Edge) {e e' : Edge} (after : List Edge) : ¬ e.Parallel e' →
      Swapped (before ++ e :: e' :: after) (before ++ e' :: e :: after)

/-- One list comes from the other by letting neighbours change places, time and again. -/
def Reordered : List Edge → List Edge → Prop :=
  Relation.ReflTransGen Swapped

theorem Swapped.cons (h : Swapped edges edges') (e : Edge) :
    Swapped (e :: edges) (e :: edges') := by
  obtain ⟨before, after, hends⟩ := h
  exact .swap (e :: before) after hends

theorem Reordered.cons (h : Reordered edges edges') (e : Edge) :
    Reordered (e :: edges) (e :: edges') :=
  h.lift (e :: ·) fun _ _ hswap => hswap.cons e

theorem Swapped.perm (h : Swapped edges edges') : edges.Perm edges' := by
  obtain ⟨before, after, -⟩ := h
  exact (List.Perm.swap _ _ after).append_left before

theorem Reordered.perm (h : Reordered edges edges') : edges.Perm edges' := by
  induction h with
  | refl => exact List.Perm.refl edges
  | tail _ hswap ih => exact ih.trans hswap.perm

theorem Swapped.leading_eq (h : Swapped edges edges') (x y : String) :
    leading edges x y = leading edges' x y := by
  obtain @⟨before, e, e', after, hends⟩ := h
  rw [leading_append, leading_append]
  congr 1
  by_cases he : e.source = x ∧ e.target = y
  · -- then the other edge leads elsewhere
    have he' : ¬ (e'.source = x ∧ e'.target = y) := by
      rintro ⟨rfl, rfl⟩
      exact hends he
    rw [leading_cons_of_not he']
    exact (leading_cons_inj e).mpr (leading_cons_of_not he')
  · rw [leading_cons_of_not he]
    exact ((leading_cons_inj e').mpr (leading_cons_of_not he)).symm

theorem Reordered.leading_eq (h : Reordered edges edges') (x y : String) :
    leading edges x y = leading edges' x y := by
  induction h with
  | refl => rfl
  | tail _ hswap ih => exact ih.trans (hswap.leading_eq x y)

/-- An edge moves to the front past edges that lead between other folders. -/
theorem reordered_front {before : List Edge} (h : ∀ b ∈ before, ¬ e.Parallel b)
    (after : List Edge) : Reordered (e :: (before ++ after)) (before ++ e :: after) := by
  induction before with
  | nil => exact .refl
  | cons b before ih =>
    obtain ⟨hb, hbefore⟩ := List.forall_mem_cons.mp h
    exact ((ih hbefore).cons b).head (.swap [] (before ++ after) hb)

/-- The first edge between its two folders, and what stands before and behind it. -/
theorem exists_first_parallel {rest : List Edge} (h : leading edges e.source e.target = e :: rest) :
    ∃ before after, edges = before ++ e :: after ∧ ∀ b ∈ before, ¬ e.Parallel b := by
  obtain ⟨before, after, rfl, hbefore, -, -⟩ := List.filter_eq_cons_iff.mp h
  refine ⟨before, after, rfl, fun b hb hparallel => hbefore b hb ?_⟩
  exact decide_eq_true ⟨hparallel.1.symm, hparallel.2.symm⟩

/-- Lists with the same edges between each two folders differ in how these are mixed, and neighbours
that change places mix them in any way. -/
theorem reordered_of_leading_eq (h : ∀ x y, leading edges x y = leading edges' x y) :
    Reordered edges edges' := by
  induction edges generalizing edges' with
  | nil =>
    cases edges' with
    | nil => exact .refl
    | cons e rest =>
      have hheads := h e.source e.target
      rw [leading_cons_self] at hheads
      exact absurd hheads (List.cons_ne_nil _ _).symm
  | cons e rest ih =>
    have hheads := h e.source e.target
    rw [leading_cons_self] at hheads
    obtain ⟨before, after, rfl, hbefore⟩ := exists_first_parallel hheads.symm
    have hfront := reordered_front hbefore after
    have hrest : Reordered rest (before ++ after) := by
      refine ih fun x y => (leading_cons_inj e).mp ?_
      rw [h x y, ← hfront.leading_eq]
    exact (hrest.cons e).trans hfront

/-! ## Edges that are changed -/

/-- One edge is another one, or there is one more, or one less. -/
inductive Edited : List Edge → List Edge → Prop where
  | changed (before : List Edge) {e e' : Edge} (after : List Edge) : e ≠ e' →
      Edited (before ++ e :: after) (before ++ e' :: after)
  | added (before : List Edge) (e : Edge) (after : List Edge) :
      Edited (before ++ after) (before ++ e :: after)
  | dropped (before : List Edge) (e : Edge) (after : List Edge) :
      Edited (before ++ e :: after) (before ++ after)

theorem Edited.not_perm (h : Edited edges edges') : ¬ edges.Perm edges' := by
  intro hperm
  cases h with
  | @changed before e e' after hne =>
    have hcount := hperm.count_eq e
    rw [List.count_append, List.count_append, List.count_cons_self,
      List.count_cons_of_ne hne.symm] at hcount
    omega
  | added before e after =>
    have hlength := hperm.length_eq
    simp only [List.length_append, List.length_cons] at hlength
    omega
  | dropped before e after =>
    have hlength := hperm.length_eq
    simp only [List.length_append, List.length_cons] at hlength
    omega

/-- **What the hash tells apart.** Two flows are hashed from the same bytes exactly when they have
the same edges between each two folders, in the same order, which is when the edges of one come from
those of the other by letting neighbours change places that lead between different folders. So an
edge that is changed, added, repeated or dropped changes the bytes. -/
theorem hashedBytes_separate (flow flow' : Flow) :
    flow.hash = .ofList (Sha256.digest flow.hashedBytes).hex ∧
    (flow.hashedBytes = flow'.hashedBytes ↔ ∀ x y, flow.between x y = flow'.between x y) ∧
    (flow.hashedBytes = flow'.hashedBytes ↔ Reordered flow.edges flow'.edges) ∧
    (Edited flow.edges flow'.edges → flow.hashedBytes ≠ flow'.hashedBytes) := by
  have hbetween : flow.hashedBytes = flow'.hashedBytes ↔
      ∀ x y, flow.between x y = flow'.between x y :=
    hashedBytes_eq_iff.trans canonicalText_eq_iff
  have hreordered : flow.hashedBytes = flow'.hashedBytes ↔ Reordered flow.edges flow'.edges :=
    hbetween.trans ⟨reordered_of_leading_eq, Reordered.leading_eq⟩
  exact ⟨rfl, hbetween, hreordered, fun hedited heq => hedited.not_perm (hreordered.mp heq).perm⟩

end Flow

end FolderFlow
