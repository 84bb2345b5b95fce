import FolderFlow.Proofs.FaultChecks

/-!
# The order of faults

`Config.validate_reports_first`: the fault that is reported is that of the first check that does not
hold, in the order of the parts and of the items of a part. What stands in later parts has no say in
it. A fault that names an item names the first one that is not well formed, judged alone, and what
stands behind that item has no say in it either.
-/

namespace FolderFlow

namespace ConfigError

/-- The item that a fault names. -/
def index? : ConfigError → Option Nat
  | edgeNotTuple index | edgeEndpoint index _ | edgeOptionsNotObject index
  | edgeOptionType index .. | packageName index | packageImportNames index
  | packageAllowedFolders index | packageUnknownFolder index _ | lintFilePlaceholder index =>
    some index
  | _ => none

namespace Part

/-- The keys under which a part stands. -/
def keys : Part → List String
  | root => []
  | appAlias => ["appAlias"]
  | flow => ["dependencyFlow", "dependencyFlowchart"]
  | docs => ["docs"]
  | overrideRules => ["overrideRules"]
  | packageRules => ["packageImportRules"]
  | lintFiles => ["lintFiles"]
  | moduleLayout => ["moduleLayout"]

/-- The parts that are checked before this one. -/
def before (part : Part) : List Part :=
  inOrder.takeWhile (· ≠ part)

theorem before_of_mem_before {p part : Part} (h : p ∈ part.before) :
    p.before ++ [p] ⊆ part.before := by
  revert h
  cases part <;> cases p <;> decide

theorem mem_inOrder (part : Part) : part ∈ inOrder := by
  cases part <;> decide

end Part

end ConfigError

namespace Config

open Json
open ConfigError (Part)

variable {raw raw' : Json} {part : Part} {e : ConfigError} {index : Nat} {item : Json}

/-- The values agree on all that stands in the parts. -/
def Agree (parts : List Part) (raw raw' : Json) : Prop :=
  (IsObject raw ↔ IsObject raw') ∧
    ∀ part ∈ parts, ∀ key ∈ part.keys, raw.get? key = raw'.get? key

/-- The item is as the grammar wants it. -/
def WellFormed (raw : Json) : Part → Json → Prop
  | .flow => IsEdge
  | .packageRules => IsPackageRule (Known raw)
  | .lintFiles => IsPattern
  | _ => fun _ => True

/-! ## What a part looks at -/

theorem Agree.mono {parts parts' : List Part} (h : Agree parts raw raw') (hsub : parts' ⊆ parts) :
    Agree parts' raw raw' :=
  ⟨h.1, fun part hpart => h.2 part (hsub hpart)⟩

theorem Agree.get?_eq {parts : List Part} {key : String} (h : Agree parts raw raw')
    (hpart : part ∈ parts) (hkey : key ∈ part.keys) : raw.get? key = raw'.get? key :=
  h.2 part hpart key hkey

theorem Agree.own_eq {key : String} (h : Agree (part.before ++ [part]) raw raw')
    (hkey : key ∈ part.keys) : raw.get? key = raw'.get? key :=
  h.get?_eq List.mem_concat_self hkey

theorem Agree.flowPart_eq {parts : List Part} (h : Agree parts raw raw') (hflow : .flow ∈ parts) :
    flowPart raw = flowPart raw' := by
  unfold flowPart
  rw [h.get?_eq hflow (by decide), h.get?_eq hflow (by decide)]

theorem Agree.known_eq {parts : List Part} (h : Agree parts raw raw') (hflow : .flow ∈ parts) :
    Known raw = Known raw' := by
  unfold Known
  rw [h.flowPart_eq hflow]

/-- What is asked of an item depends on the earlier parts only. -/
theorem Agree.itemChecks_eq (h : Agree part.before raw raw') :
    itemChecks raw part = itemChecks raw' part := by
  cases part with
  | packageRules => simp only [itemChecks, h.known_eq (by decide)]
  | _ => rfl

theorem Agree.wellFormed_eq (h : Agree part.before raw raw') :
    WellFormed raw part = WellFormed raw' part := by
  cases part with
  | packageRules => simp only [WellFormed, h.known_eq (by decide)]
  | _ => rfl

theorem Agree.listed_eq (h : Agree (part.before ++ [part]) raw raw') :
    listed raw part = listed raw' part := by
  cases part with
  | flow => simp only [listed, h.flowPart_eq (by decide)]
  | packageRules => simp only [listed, h.own_eq List.mem_cons_self]
  | lintFiles => simp only [listed, h.own_eq List.mem_cons_self]
  | _ => rfl

theorem Agree.headChecks_eq (h : Agree (part.before ++ [part]) raw raw') :
    headChecks raw part = headChecks raw' part := by
  cases part with
  | root => simp only [headChecks, h.1]
  | flow => simp only [headChecks, h.flowPart_eq (by decide)]
  | overrideRules =>
    simp only [headChecks, h.known_eq (by decide), h.own_eq List.mem_cons_self]
  | _ => simp only [headChecks, h.own_eq List.mem_cons_self]

theorem Agree.partChecks_eq (h : Agree (part.before ++ [part]) raw raw') :
    partChecks raw part = partChecks raw' part := by
  unfold partChecks
  rw [h.headChecks_eq, h.listed_eq, (h.mono (List.subset_append_left _ _)).itemChecks_eq]

/-! ## Which fault belongs where -/

theorem fault_of_mem_headChecks {c : Check} (h : c ∈ headChecks raw part) :
    c.fault.part = part ∧ c.fault.index? = none := by
  cases part with
  | overrideRules =>
    simp only [headChecks, overridesChecks, List.cons_append, List.mem_cons, List.mem_append,
      List.mem_map] at h
    rcases h with rfl | ⟨entry, -, rfl⟩ | ⟨entry, -, rfl⟩ <;> exact ⟨rfl, rfl⟩
  | _ =>
    revert c
    simp [headChecks, docsChecks, ConfigError.part, ConfigError.index?]

theorem fault_of_mem_itemChecks {c : Check} (h : c ∈ itemChecks raw part index item) :
    c.fault.part = part ∧ c.fault.index? = some index := by
  cases part with
  | flow =>
    revert c
    simp [itemChecks, edgeChecks, optionsChecks, ConfigError.part, ConfigError.index?]
  | packageRules =>
    simp only [itemChecks, packageRuleChecks, allowedFoldersChecks, List.cons_append,
      List.nil_append, List.mem_cons, List.mem_map] at h
    rcases h with rfl | rfl | rfl | ⟨folder, -, rfl⟩ <;> exact ⟨rfl, rfl⟩
  | lintFiles =>
    obtain rfl := List.mem_singleton.mp h
    exact ⟨rfl, rfl⟩
  | _ => exact absurd h List.not_mem_nil

/-- The first fault of a part is one of the part as a whole, or else that of an item. -/
theorem firstFault_partChecks_iff : FirstFault (partChecks raw part) e ↔
    FirstFault (headChecks raw part) e ∨ AllHold (headChecks raw part) ∧
      ∃ k item, (listed raw part)[k]? = some item ∧ FirstFault (itemChecks raw part k item) e ∧
        ∀ k' < k, ∀ item', (listed raw part)[k']? = some item' →
          AllHold (itemChecks raw part k' item') := by
  unfold partChecks
  rw [firstFault_append_iff, firstFault_checksFrom_iff]
  simp only [Nat.zero_add]

theorem part_of_firstFault (h : FirstFault (partChecks raw part) e) : e.part = part := by
  rcases firstFault_partChecks_iff.mp h with hhead | ⟨-, k, item, -, hitem, -⟩
  · obtain ⟨c, hc, -, rfl⟩ := hhead.exists_mem
    exact (fault_of_mem_headChecks hc).1
  · obtain ⟨c, hc, -, rfl⟩ := hitem.exists_mem
    exact (fault_of_mem_itemChecks hc).1

/-- The first fault lies in its own part, and all that is asked of the parts before it holds. -/
theorem firstFault_flatMap_iff (parts : List Part) :
    FirstFault (parts.flatMap (partChecks raw)) e ↔ e.part ∈ parts ∧
      (∀ p ∈ parts.takeWhile (· ≠ e.part), AllHold (partChecks raw p)) ∧
      FirstFault (partChecks raw e.part) e := by
  induction parts with
  | nil => simp [not_firstFault_nil]
  | cons p parts ih =>
    rw [List.flatMap_cons, firstFault_append_iff, ih]
    by_cases hp : p = e.part
    · -- later parts are not reached, since all checks of this one would have to hold
      subst hp
      simp only [List.mem_cons_self, true_and, List.takeWhile_cons, ne_eq, not_true_eq_false,
        decide_false, Bool.false_eq_true, if_false, List.not_mem_nil, false_imp_iff,
        implies_true]
      exact or_iff_left fun h => h.2.2.2.not_allHold h.1
    · have hne : ¬ FirstFault (partChecks raw p) e := fun h => hp (part_of_firstFault h).symm
      rw [or_iff_right hne, List.takeWhile_cons_of_pos (by simpa using hp), List.forall_mem_cons,
        List.mem_cons, or_iff_right (Ne.symm hp)]
      tauto

theorem firstFault_checks_iff : FirstFault (checks raw) e ↔
    (∀ p ∈ e.part.before, AllHold (partChecks raw p)) ∧ FirstFault (partChecks raw e.part) e :=
  (firstFault_flatMap_iff Part.inOrder).trans (and_iff_right (Part.mem_inOrder e.part))

theorem Agree.allHold_before (h : Agree part.before raw raw')
    (hall : ∀ p ∈ part.before, AllHold (partChecks raw p)) :
    ∀ p ∈ part.before, AllHold (partChecks raw' p) := by
  intro p hp
  rw [← (h.mono (Part.before_of_mem_before hp)).partChecks_eq]
  exact hall p hp

/-- What stands in later parts has no say in the first fault. -/
theorem Agree.firstFault (h : Agree (e.part.before ++ [e.part]) raw raw')
    (hfault : FirstFault (checks raw) e) : FirstFault (checks raw') e := by
  obtain ⟨hbefore, hpart⟩ := firstFault_checks_iff.mp hfault
  rw [h.partChecks_eq] at hpart
  exact firstFault_checks_iff.mpr
    ⟨(h.mono (List.subset_append_left _ _)).allHold_before hbefore, hpart⟩

/-! ## Items -/

theorem allHold_map_iff {p : Json → Prop} {fault : Json → ConfigError} {items : List Json} :
    AllHold (items.map fun item => ⟨p item, fault item⟩) ↔ ∀ item ∈ items, p item := by
  simp [AllHold]

theorem allHold_allowedFoldersChecks_iff {known : String → Prop} {part : Option Json} :
    AllHold (allowedFoldersChecks known index part) ↔
      IsRequired (IsNonemptyArrayOf (IsFolder known)) part := by
  unfold allowedFoldersChecks
  rw [allHold_cons_iff, allHold_map_iff]
  constructor
  · rintro ⟨⟨_, rfl, hne, items, rfl, -⟩, hall⟩
    exact ⟨_, rfl, hne, items, rfl, hall⟩
  · rintro ⟨_, rfl, hne, items, rfl, hall⟩
    exact ⟨⟨_, rfl, hne, items, rfl, fun _ _ => trivial⟩, hall⟩

/-- All that is asked of an item holds exactly when it is well formed. -/
theorem allHold_itemChecks_iff :
    AllHold (itemChecks raw part index item) ↔ WellFormed raw part item := by
  cases part with
  | flow =>
    refine (reports_readEdge index item).exists_ok_iff.symm.trans ?_
    exact (exists_congr fun _ => readEdge_eq_ok_iff).trans exists_describesEdge_iff
  | packageRules =>
    simp only [itemChecks, packageRuleChecks, List.cons_append, List.nil_append, allHold_cons_iff,
      allHold_allowedFoldersChecks_iff]
    rfl
  | lintFiles => exact allHold_cons_iff.trans (and_iff_left allHold_nil)
  | _ => exact iff_of_true allHold_nil trivial

theorem eq_array_of_items_ne_nil {part : Option Json} (h : (part.getD .null).items ≠ []) :
    ∃ items, items ≠ [] ∧ part = some (.array items) := by
  match part with
  | some (.array items) => exact ⟨items, h, rfl⟩
  | none | some .null | some (.bool _) | some (.number _) | some (.string _)
  | some (.object _) => exact absurd rfl h

/-- Where there are items, there is nothing amiss with the part as a whole. -/
theorem allHold_headChecks (h : listed raw part ≠ []) : AllHold (headChecks raw part) := by
  cases part with
  | flow =>
    obtain ⟨items, -, hpart⟩ := eq_array_of_items_ne_nil h
    exact allHold_cons_iff.mpr ⟨⟨_, hpart, items, rfl⟩, allHold_nil⟩
  | packageRules =>
    obtain ⟨items, -, hpart⟩ := eq_array_of_items_ne_nil h
    refine allHold_cons_iff.mpr ⟨fun j hj => Or.inr ⟨items, ?_⟩, allHold_nil⟩
    exact Option.some.inj (hj.symm.trans hpart)
  | lintFiles =>
    simp only [listed] at h
    simp only [headChecks]
    generalize raw.get? "lintFiles" = part at h ⊢
    unfold patternsOf at h
    split at h
    · rename_i s
      have htype : IsRequired (fun j => IsString j ∨ IsArray j) (some (.string s)) :=
        ⟨_, rfl, Or.inl ⟨s, rfl⟩⟩
      have hne : some (Json.string s) ≠ some (.array []) := by simp
      exact allHold_cons_iff.mpr ⟨htype, allHold_cons_iff.mpr ⟨hne, allHold_nil⟩⟩
    · obtain ⟨items, hne, rfl⟩ := eq_array_of_items_ne_nil h
      have htype : IsRequired (fun j => IsString j ∨ IsArray j) (some (.array items)) :=
        ⟨_, rfl, Or.inr ⟨items, rfl⟩⟩
      refine allHold_cons_iff.mpr ⟨htype, allHold_cons_iff.mpr ⟨?_, allHold_nil⟩⟩
      simpa using hne
  | _ => exact absurd rfl h

/-- A fault that names an item is the first of its part just when it is the first of that item,
and the items before have none. -/
theorem firstFault_at_iff {i : Nat} (hi : e.index? = some i) :
    FirstFault (partChecks raw part) e ↔
      ∃ item, (listed raw part)[i]? = some item ∧ FirstFault (itemChecks raw part i item) e ∧
        ∀ k < i, ∀ item', (listed raw part)[k]? = some item' → WellFormed raw part item' := by
  rw [firstFault_partChecks_iff]
  simp only [allHold_itemChecks_iff]
  constructor
  · rintro (hhead | ⟨-, k, item, hitem, hfault, hbefore⟩)
    · -- a fault of the part as a whole names no item
      obtain ⟨c, hc, -, rfl⟩ := hhead.exists_mem
      exact absurd ((fault_of_mem_headChecks hc).2.symm.trans hi) nofun
    · obtain ⟨c, hc, -, rfl⟩ := hfault.exists_mem
      obtain rfl := Option.some.inj ((fault_of_mem_itemChecks hc).2.symm.trans hi)
      exact ⟨item, hitem, hfault, hbefore⟩
  · rintro ⟨item, hitem, hfault, hbefore⟩
    refine Or.inr ⟨allHold_headChecks fun hnil => ?_, i, item, hitem, hfault, hbefore⟩
    rw [hnil] at hitem
    exact absurd hitem nofun

/-- What stands behind the named item has no say in the first fault. -/
theorem Agree.firstFault_at {i : Nat} (h : Agree e.part.before raw raw') (hi : e.index? = some i)
    (htake : (listed raw' e.part).take (i + 1) = (listed raw e.part).take (i + 1))
    (hfault : FirstFault (checks raw) e) : FirstFault (checks raw') e := by
  obtain ⟨hbefore, hpart⟩ := firstFault_checks_iff.mp hfault
  obtain ⟨item, hitem, hfirst, hwell⟩ := (firstFault_at_iff hi).mp hpart
  have hsame : ∀ k ≤ i, (listed raw' e.part)[k]? = (listed raw e.part)[k]? := by
    intro k hk
    rw [← List.getElem?_take_of_lt (Nat.lt_succ_of_le hk), htake,
      List.getElem?_take_of_lt (Nat.lt_succ_of_le hk)]
  refine firstFault_checks_iff.mpr ⟨h.allHold_before hbefore, (firstFault_at_iff hi).mpr ?_⟩
  refine ⟨item, (hsame i (Nat.le_refl i)).trans hitem, ?_, fun k hk item' hitem' => ?_⟩
  · rwa [← h.itemChecks_eq]
  · rw [hsame k (Nat.le_of_lt hk)] at hitem'
    rw [← h.wellFormed_eq]
    exact hwell k hk item' hitem'

/-! ## Overrides -/

/-- The first unknown key is reported, whatever the values are. -/
theorem eq_unknownFolder_of_firstFault {entries : Members}
    (hentries : raw.get? "overrideRules" = some (.object entries))
    (hunknown : ∃ entry ∈ entries, ¬ Known raw entry.1)
    (h : FirstFault (partChecks raw .overrideRules) e) :
    ∃ before folder value after, entries = before ++ (folder, value) :: after ∧
      (∀ entry ∈ before, Known raw entry.1) ∧ ¬ Known raw folder ∧
      e = .overrideUnknownFolder folder := by
  have hchecks : partChecks raw .overrideRules =
      overridesChecks (Known raw) (some (.object entries)) := by
    simp [partChecks, headChecks, listed, checksFrom, hentries]
  have hobject : IsOptional IsObject (some (.object entries)) :=
    fun j hj => Or.inr ⟨entries, (Option.some.inj hj).symm⟩
  rw [hchecks, overridesChecks, List.cons_append, firstFault_cons_iff,
    or_iff_right fun hnot => hnot.1 hobject, firstFault_append_iff] at h
  rcases h.2 with hkeys | ⟨hkeys, -⟩
  · obtain ⟨before, ⟨folder, value⟩, after, rfl, hbefore, hfolder, rfl⟩ :=
      firstFault_map_iff.mp hkeys
    exact ⟨before, folder, value, after, rfl, hbefore, hfolder, rfl⟩
  · obtain ⟨entry, hentry, hnot⟩ := hunknown
    exact absurd (List.forall_mem_map.mp hkeys entry hentry) hnot

/-! ## The whole -/

/-- **The first fault.** A configuration is refused with the fault of the first check that does not
hold. The fault stays when later parts are changed at will. A fault that names an item names the
first one that is not well formed, judged alone, by the first check of that item that does not hold;
it stays when the items behind are changed or dropped. Among the overrides the first key that is no
folder is reported, whatever the values are. -/
theorem validate_reports_first (raw : Json) (e : ConfigError) :
    (validate raw = .error e ↔ FirstFault (checks raw) e) ∧
    (validate raw = .error e →
      (∀ raw', Agree (e.part.before ++ [e.part]) raw raw' → validate raw' = .error e) ∧
      (∀ i, e.index? = some i →
        (∃ item, (listed raw e.part)[i]? = some item ∧
          FirstFault (itemChecks raw e.part i item) e ∧ ¬ WellFormed raw e.part item) ∧
        (∀ k < i, ∀ item, (listed raw e.part)[k]? = some item → WellFormed raw e.part item) ∧
        ∀ raw', Agree e.part.before raw raw' →
          (listed raw' e.part).take (i + 1) = (listed raw e.part).take (i + 1) →
          validate raw' = .error e) ∧
      (e.part = .overrideRules → ∀ entries, raw.get? "overrideRules" = some (.object entries) →
        (∃ entry ∈ entries, ¬ Known raw entry.1) →
        ∃ before folder value after, entries = before ++ (folder, value) :: after ∧
          (∀ entry ∈ before, Known raw entry.1) ∧ ¬ Known raw folder ∧
          e = .overrideUnknownFolder folder)) := by
  refine ⟨reports_validate raw e, fun h => ?_⟩
  have hfault := (reports_validate raw e).mp h
  have hpart := (firstFault_checks_iff.mp hfault).2
  refine ⟨fun raw' hagree => ?_, fun i hi => ?_, fun hoverrides entries hentries hunknown => ?_⟩
  · exact (reports_validate raw' e).mpr (hagree.firstFault hfault)
  · obtain ⟨item, hitem, hfirst, hwell⟩ := (firstFault_at_iff hi).mp hpart
    refine ⟨⟨item, hitem, hfirst, ?_⟩, hwell, fun raw' hagree htake => ?_⟩
    · exact allHold_itemChecks_iff.not.mp hfirst.not_allHold
    · exact (reports_validate raw' e).mpr (hagree.firstFault_at hi htake hfault)
  · rw [hoverrides] at hpart
    exact eq_unknownFolder_of_firstFault hentries hunknown hpart

example : validate (.object [("appAlias", .string "~a"), ("lintFiles", .null),
    ("dependencyFlow", .array [.array [.string "x", .string "y"], .array [.string " ", .null],
      .null])]) = .error (.edgeEndpoint 1 0) :=
  rfl

end Config

end FolderFlow
