import FolderFlow.Proofs.DistinctKeys
import FolderFlow.Proofs.Grammar
import Mathlib.Data.List.Pairwise

/-!
# Overrides in the order of their folders

The overrides are read one entry after the other into a list that stays sorted by its keys, without
repeats (`sortedByKey_insertSorted`). A sorted list is known by its members (`eq_of_sortedByKey`),
so what is read depends only on which object stands last under which key
(`readOverrideEntries_eq_ok_iff`).
-/

namespace FolderFlow

/-! ## The order of keys -/

namespace Text

theorem atMost_antisymm {a b : String} (hab : atMost a b = true) (hba : atMost b a = true) :
    a = b :=
  String.toList_injective (atMostChars_antisymm hab hba)

theorem atMost_trans {a b c : String} (hab : atMost a b = true) (hbc : atMost b c = true) :
    atMost a c = true :=
  atMostChars_trans hab hbc

theorem atMost_of_not {a b : String} (h : ¬ atMost a b = true) : atMost b a = true :=
  (atMostChars_total a.toList b.toList).resolve_left h

end Text

namespace Config

open Json

variable {entries : Members} {key folder : String} {rules : Members} {value : Json}
  {found result : List (String × Members)}

/-- Of two keys in order, the second does not come before the first. -/
theorem key_ne_of_before {a b : String} (h : Text.atMost a b = true ∧ a ≠ b) :
    ¬ Text.atMost b a = true :=
  fun hba => h.2 (Text.atMost_antisymm h.1 hba)

theorem sortedByKey_cons_iff {head : String × Members} : SortedByKey (head :: found) ↔
    (∀ entry ∈ found, Text.atMost head.1 entry.1 = true ∧ head.1 ≠ entry.1) ∧ SortedByKey found :=
  List.pairwise_cons

/-- Two sorted lists with the same members are the same. -/
theorem eq_of_sortedByKey {l l' : List (String × Members)} (h : SortedByKey l)
    (h' : SortedByKey l') (hmem : ∀ key rules, (key, rules) ∈ l ↔ (key, rules) ∈ l') : l = l' := by
  have hnodup : ∀ {l}, SortedByKey l → l.Nodup :=
    fun hl => hl.imp fun hab heq => hab.2 (congrArg Prod.fst heq)
  refine List.Perm.eq_of_pairwise ?_ h h'
    ((List.perm_ext_iff_of_nodup (hnodup h) (hnodup h')).mpr fun entry => hmem entry.1 entry.2)
  exact fun a b _ _ hab hba => absurd hba.1 (key_ne_of_before hab)

/-! ## Inserting -/

theorem mem_insertSorted (hfound : SortedByKey found) (key : String) (rules : Members)
    (k : String) (r : Members) : (k, r) ∈ insertSorted key rules found ↔
      (k = key ∧ r = rules) ∨ (k ≠ key ∧ (k, r) ∈ found) := by
  induction found with
  | nil => simp [insertSorted]
  | cons head found ih =>
    obtain ⟨k', r'⟩ := head
    obtain ⟨hhead, hfound⟩ := sortedByKey_cons_iff.mp hfound
    rw [insertSorted]
    split
    · -- the entry takes the place of the head
      rename_i hkey
      subst hkey
      have hne : (k, r) ∈ found → k ≠ key := fun hmem heq => (hhead _ hmem).2 heq.symm
      simp only [List.mem_cons, Prod.mk.injEq]
      tauto
    · rename_i hkey
      split
      · -- everything else stands behind the entry
        rename_i hbefore
        have hne : (k, r) ∈ (k', r') :: found → k ≠ key := by
          rintro hmem rfl
          rcases List.mem_cons.mp hmem with heq | hmem
          · exact hkey (Prod.mk.inj heq).1
          · exact hkey (Text.atMost_antisymm hbefore (hhead _ hmem).1)
        rw [List.mem_cons, Prod.mk.injEq]
        tauto
      · rw [List.mem_cons, ih hfound, List.mem_cons, Prod.mk.injEq]
        have hne : k = k' → k ≠ key := fun heq hk => hkey (hk ▸ heq)
        tauto

theorem sortedByKey_insertSorted (hfound : SortedByKey found) (key : String) (rules : Members) :
    SortedByKey (insertSorted key rules found) := by
  induction found with
  | nil => simp [insertSorted, SortedByKey]
  | cons head found ih =>
    obtain ⟨k', r'⟩ := head
    obtain ⟨hhead, hrest⟩ := sortedByKey_cons_iff.mp hfound
    rw [insertSorted]
    split
    · rename_i hkey
      subst hkey
      exact sortedByKey_cons_iff.mpr ⟨hhead, hrest⟩
    · rename_i hkey
      split
      · rename_i hbefore
        refine sortedByKey_cons_iff.mpr ⟨?_, hfound⟩
        intro entry hmem
        rcases List.mem_cons.mp hmem with rfl | hmem
        · exact ⟨hbefore, hkey⟩
        · refine ⟨Text.atMost_trans hbefore (hhead entry hmem).1, ?_⟩
          rintro rfl
          exact key_ne_of_before (hhead entry hmem) hbefore
      · rename_i hafter
        refine sortedByKey_cons_iff.mpr ⟨?_, ih hrest⟩
        rintro ⟨k, r⟩ hmem
        rcases (mem_insertSorted hrest key rules k r).mp hmem with ⟨rfl, -⟩ | ⟨-, hmem⟩
        · exact ⟨Text.atMost_of_not hafter, Ne.symm hkey⟩
        · exact hhead _ hmem

/-! ## The last object under a key -/

/-- Some object stands under the key. -/
def HasObject (entries : Members) (key : String) : Prop :=
  ∃ rules, (key, .object rules) ∈ entries

theorem not_lastObject_nil : ¬ LastObject [] key rules := by
  rintro ⟨before, after, h, -⟩
  exact absurd h (by simp)

theorem lastObject_cons_iff : LastObject ((folder, value) :: entries) key rules ↔
    LastObject entries key rules ∨
      (folder = key ∧ value = .object rules ∧ ¬ HasObject entries key) := by
  constructor
  · rintro ⟨before, after, h, hafter⟩
    cases before with
    | nil =>
      obtain ⟨hhead, rfl⟩ := List.cons.inj h
      obtain ⟨rfl, rfl⟩ := Prod.mk.inj hhead
      exact Or.inr ⟨rfl, rfl, fun ⟨other, hother⟩ => hafter other hother⟩
    | cons head before =>
      obtain ⟨-, rfl⟩ := List.cons.inj h
      exact Or.inl ⟨before, after, rfl, hafter⟩
  · rintro (⟨before, after, rfl, hafter⟩ | ⟨rfl, rfl, hnone⟩)
    · exact ⟨_ :: before, after, rfl, hafter⟩
    · exact ⟨[], entries, rfl, fun other hother => hnone ⟨other, hother⟩⟩

theorem hasObject_cons_iff : HasObject ((folder, value) :: entries) key ↔
    (folder = key ∧ ∃ rules, value = .object rules) ∨ HasObject entries key := by
  constructor
  · rintro ⟨rules, hmem⟩
    rcases List.mem_cons.mp hmem with heq | hmem
    · obtain ⟨rfl, rfl⟩ := Prod.mk.inj heq
      exact Or.inl ⟨rfl, rules, rfl⟩
    · exact Or.inr ⟨rules, hmem⟩
  · rintro (⟨rfl, rules, rfl⟩ | ⟨rules, hmem⟩)
    · exact ⟨rules, List.mem_cons_self⟩
    · exact ⟨rules, List.mem_cons_of_mem _ hmem⟩

/-! ## Reading the entries -/

/-- What is found under a key is the last object there, or else what was found before. -/
theorem of_readOverrideEntries (h : readOverrideEntries entries found = .ok result)
    (hfound : SortedByKey found) :
    (∀ entry ∈ entries, IsOverride entry.2) ∧ SortedByKey result ∧
      ∀ key rules, (key, rules) ∈ result ↔
        LastObject entries key rules ∨ (¬ HasObject entries key ∧ (key, rules) ∈ found) := by
  induction entries generalizing found with
  | nil =>
    obtain rfl := Except.ok.inj h
    refine ⟨by simp, hfound, fun key rules => ?_⟩
    simp [not_lastObject_nil, HasObject]
  | cons entry entries ih =>
    obtain ⟨folder, value⟩ := entry
    cases value with
    | null =>
      obtain ⟨hall, hsorted, hmem⟩ := ih h hfound
      refine ⟨List.forall_mem_cons.mpr ⟨Or.inl rfl, hall⟩, hsorted, fun key rules => ?_⟩
      simp [hmem, lastObject_cons_iff, hasObject_cons_iff]
    | object own =>
      obtain ⟨hall, hsorted, hmem⟩ := ih h (sortedByKey_insertSorted hfound folder own)
      refine ⟨List.forall_mem_cons.mpr ⟨Or.inr ⟨own, rfl⟩, hall⟩, hsorted, fun key rules => ?_⟩
      rw [hmem, mem_insertSorted hfound, lastObject_cons_iff, hasObject_cons_iff, Json.object.injEq,
        eq_comm (a := folder), eq_comm (a := own),
        and_iff_left (⟨own, rfl⟩ : ∃ r, object own = object r)]
      tauto
    | _ => exact absurd h (by simp [readOverrideEntries])

theorem exists_readOverrideEntries (hall : ∀ entry ∈ entries, IsOverride entry.2)
    (found : List (String × Members)) :
    ∃ result, readOverrideEntries entries found = .ok result := by
  induction entries generalizing found with
  | nil => exact ⟨found, rfl⟩
  | cons entry entries ih =>
    obtain ⟨folder, value⟩ := entry
    obtain ⟨hhead, htail⟩ := List.forall_mem_cons.mp hall
    rcases hhead with hnull | ⟨own, hown⟩
    · obtain rfl : value = .null := hnull
      exact ih htail found
    · obtain rfl : value = .object own := hown
      exact ih htail (insertSorted folder own found)

theorem readOverrideEntries_eq_ok_iff : readOverrideEntries entries [] = .ok result ↔
    (∀ entry ∈ entries, IsOverride entry.2) ∧ SortedByKey result ∧
      ∀ key rules, (key, rules) ∈ result ↔ LastObject entries key rules := by
  constructor
  · intro h
    obtain ⟨hall, hsorted, hmem⟩ := of_readOverrideEntries h List.Pairwise.nil
    exact ⟨hall, hsorted, fun key rules => by simp [hmem]⟩
  · rintro ⟨hall, hsorted, hmem⟩
    obtain ⟨result', h⟩ := exists_readOverrideEntries hall []
    obtain ⟨-, hsorted', hmem'⟩ := of_readOverrideEntries h List.Pairwise.nil
    rw [h, eq_of_sortedByKey hsorted' hsorted fun key rules => by simp [hmem, hmem']]

theorem exists_describesOverrides_iff {known : String → Prop} {j : Json} :
    (∃ o, DescribesOverrides known j o) ↔ IsOverrides known j := by
  constructor
  · rintro ⟨o, entries, rfl, hall, -⟩
    exact ⟨entries, rfl, hall⟩
  · rintro ⟨entries, rfl, hall⟩
    obtain ⟨o, ho⟩ := exists_readOverrideEntries (fun entry hentry => (hall entry hentry).2) []
    obtain ⟨-, hsorted, hmem⟩ := readOverrideEntries_eq_ok_iff.mp ho
    exact ⟨o, entries, rfl, hall, hsorted, hmem⟩

/-! ## The overrides of a configuration -/

/-- In a sorted list each key is found with its one value. -/
theorem lookup_eq_some_iff_of_sortedByKey (h : SortedByKey found) :
    found.lookup key = some rules ↔ (key, rules) ∈ found :=
  lookup_eq_some_iff_of_nodup (List.pairwise_map.mpr (h.imp And.right))

variable {raw : Members} {c : Config}

theorem Describes.sortedByKey (h : Describes raw c) : SortedByKey c.overrides := by
  rcases eq_or_exists_of_describesOr h.overrides with hnone | ⟨_, _, _, _, hsorted, _⟩
  · rw [hnone]
    exact List.Pairwise.nil
  · exact hsorted

theorem Describes.mem_folders (h : Describes raw c) (hmem : (folder, rules) ∈ c.overrides) :
    folder ∈ c.folders := by
  rcases eq_or_exists_of_describesOr h.overrides with hnone | ⟨_, entries, _, hall, _, hlast⟩
  · exact absurd (hnone ▸ hmem) List.not_mem_nil
  · obtain ⟨before, after, rfl, -⟩ := (hlast folder rules).mp hmem
    exact (hall (folder, .object rules) (by simp)).1

end Config

end FolderFlow
