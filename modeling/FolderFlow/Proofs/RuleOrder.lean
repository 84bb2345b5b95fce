import FolderFlow.Proofs.FlatConfig

/-!
# The order of the rules

The generated rule stands behind the overrides of a folder, but it does not leave them in their
order: where an override of its name is taken out, the last override moves into the gap.
`FlatConfig.rules_in_order_iff`: the others keep their order exactly when at most one of them stands
behind the one that is taken out.
-/

namespace FolderFlow

/-- The last one moves to the front. -/
def lastToFront {α : Type} (l : List α) : List α :=
  l.getLast?.toList ++ l.dropLast

theorem lastToFront_concat {α : Type} (l : List α) (last : α) :
    lastToFront (l ++ [last]) = last :: l := by
  rw [lastToFront, List.getLast?_concat, List.dropLast_concat]
  rfl

/-- Things that differ stay in their places when there is one of them at most. -/
theorem lastToFront_eq_self_iff {α : Type} {l : List α} (h : l.Nodup) :
    lastToFront l = l ↔ l.length ≤ 1 := by
  induction l using List.reverseRecOn with
  | nil => exact iff_of_true rfl (Nat.zero_le 1)
  | append_singleton front last =>
    rw [lastToFront_concat, List.length_append, List.length_singleton]
    cases front with
    | nil => exact iff_of_true rfl (Nat.le_refl 1)
    | cons first front =>
      have hne : last ≠ first := by
        rintro rfl
        exact (List.nodup_cons.mp h).1 (List.mem_append_right _ (List.mem_singleton_self _))
      refine iff_of_false (fun heq => hne (List.cons.inj heq).1) ?_
      rw [List.length_cons]
      omega

namespace Members

variable {members : Members} {key : String} {before after : List String}

/-! ## Keys that are left -/

theorem keys_dropHead (head : String × Json) (rest : Members) :
    keys (dropHead (head :: rest)) = lastToFront (keys rest) := by
  unfold lastToFront keys
  rw [dropHead, List.getLast?_map, ← List.map_dropLast]
  cases hlast : rest.getLast? with
  | none =>
    obtain rfl := List.getLast?_eq_none_iff.mp hlast
    rfl
  | some last => rfl

theorem keys_remove_of_notMem (h : key ∉ keys members) :
    keys (remove members key) = keys members := by
  induction members with
  | nil => rfl
  | cons head rest ih =>
    have hne : head.1 ≠ key := Ne.symm (List.ne_of_not_mem_cons h)
    rw [remove, if_neg hne, keys_cons, ih (List.not_mem_of_not_mem_cons h), keys_cons]

/-- The keys before the gap stay, and the last of those behind moves into it. -/
theorem keys_remove_of_eq (h : keys members = before ++ key :: after) (hbefore : key ∉ before) :
    keys (remove members key) = before ++ lastToFront after := by
  induction before generalizing members with
  | nil =>
    obtain ⟨head, rest, rfl⟩ : ∃ head rest, members = head :: rest :=
      List.exists_cons_of_ne_nil fun hnil => by simp [hnil, keys] at h
    obtain ⟨hkey, rfl⟩ := List.cons.inj h
    rw [remove, if_pos hkey]
    exact keys_dropHead _ _
  | cons k before ih =>
    obtain ⟨head, rest, rfl⟩ : ∃ head rest, members = head :: rest :=
      List.exists_cons_of_ne_nil fun hnil => by simp [hnil, keys] at h
    obtain ⟨rfl, hrest⟩ := List.cons.inj h
    have hne : head.1 ≠ key := Ne.symm (List.ne_of_not_mem_cons hbefore)
    rw [remove, if_neg hne, keys_cons, ih hrest (List.not_mem_of_not_mem_cons hbefore),
      List.cons_append]

end Members

namespace FlatConfig

variable {r : FolderRules} {before after : List String}

/-- The other overrides in their order, and the generated rule behind them. -/
def InOrder (r : FolderRules) (rules : Members) : Prop :=
  Members.keys rules =
    (Members.keys r.overrides).filter (· ≠ restrictedImports) ++ [restrictedImports]

theorem keys_rules (h : (Members.keys r.overrides).Nodup) :
    Members.keys (rules r) =
      Members.keys (Members.remove r.overrides restrictedImports) ++ [restrictedImports] := by
  rw [rules_eq_append h, Members.keys, List.map_append]
  rfl

theorem keys_rules_of_notMem (h : (Members.keys r.overrides).Nodup)
    (hnew : restrictedImports ∉ Members.keys r.overrides) :
    Members.keys (rules r) = Members.keys r.overrides ++ [restrictedImports] := by
  rw [keys_rules h, Members.keys_remove_of_notMem hnew]

theorem keys_rules_of_eq (h : (Members.keys r.overrides).Nodup)
    (hkeys : Members.keys r.overrides = before ++ restrictedImports :: after) :
    Members.keys (rules r) = before ++ lastToFront after ++ [restrictedImports] := by
  have hbefore : restrictedImports ∉ before := by
    rw [hkeys] at h
    exact (List.nodup_middle.mp h).notMem ∘ List.mem_append_left _
  rw [keys_rules h, Members.keys_remove_of_eq hkeys hbefore]

/-- Taking the override out without moving another would leave this. -/
theorem inOrder_iff_of_eq (h : (Members.keys r.overrides).Nodup)
    (hkeys : Members.keys r.overrides = before ++ restrictedImports :: after) :
    InOrder r (rules r) ↔ after.length ≤ 1 := by
  have hafter : after.Nodup := by
    rw [hkeys] at h
    exact (List.nodup_cons.mp h.of_append_right).2
  have hothers : (Members.keys r.overrides).filter (· ≠ restrictedImports) = before ++ after := by
    have hnot : restrictedImports ∉ before ++ after := by
      rw [hkeys] at h
      exact (List.nodup_middle.mp h).notMem
    rw [hkeys, List.filter_append, List.filter_cons_of_neg (by simp), ← List.filter_append,
      List.filter_eq_self]
    intro key hkey
    exact decide_eq_true fun heq => hnot (heq ▸ hkey)
  rw [InOrder, hothers, keys_rules_of_eq h hkeys, List.append_cancel_right_eq,
    List.append_cancel_left_eq, lastToFront_eq_self_iff hafter]

/-- **The order of the rules.** In the object of a folder the generated rule is the last one. Where
it overrides nothing, the overrides stand before it as they are written. Where it takes the place of
an override, the last of those behind that one moves into its place; so the overrides keep their
order exactly when at most one stands behind it. -/
theorem rules_in_order_iff (h : (Members.keys r.overrides).Nodup) :
    ∃ rules, (entry r).get? "rules" = some (.object rules) ∧
      (restrictedImports ∉ Members.keys r.overrides →
        Members.keys rules = Members.keys r.overrides ++ [restrictedImports]) ∧
      (∀ before after, Members.keys r.overrides = before ++ restrictedImports :: after →
        Members.keys rules = before ++ lastToFront after ++ [restrictedImports]) ∧
      (InOrder r rules ↔ ∀ before after,
        Members.keys r.overrides = before ++ restrictedImports :: after → after.length ≤ 1) := by
  refine ⟨rules r, rfl, keys_rules_of_notMem h, fun _ _ => keys_rules_of_eq h, ?_⟩
  by_cases hmem : restrictedImports ∈ Members.keys r.overrides
  · obtain ⟨before, after, hkeys⟩ := List.append_of_mem hmem
    rw [inOrder_iff_of_eq h hkeys]
    constructor
    · intro hlength before' after' hkeys'
      exact (inOrder_iff_of_eq h hkeys').mp ((inOrder_iff_of_eq h hkeys).mpr hlength)
    · intro hall
      exact hall before after hkeys
  · refine iff_of_true ?_ fun before after hkeys => absurd ?_ hmem
    · rw [InOrder, keys_rules_of_notMem h hmem, List.filter_eq_self.mpr]
      intro key hkey
      exact decide_eq_true fun heq => hmem (heq ▸ hkey)
    · rw [hkeys]
      exact List.mem_append_right _ List.mem_cons_self

/-- Rules of a folder that say nothing but what they override. -/
def overriding (keys : List String) : FolderRules where
  folder := "a"
  files := []
  disallowed := []
  rules := ⟨[], []⟩
  overrides := keys.map fun key => (key, .string "off")

theorem rules_kept_in_order :
    (Members.keys (overriding ["semi", "no-restricted-imports", "quotes"]).overrides).Nodup ∧
    ∃ rules, (entry (overriding ["semi", "no-restricted-imports", "quotes"])).get? "rules" =
        some (.object rules) ∧
      Members.keys rules = ["semi", "quotes", "no-restricted-imports"] := by
  have hnodup :
      (Members.keys (overriding ["semi", "no-restricted-imports", "quotes"]).overrides).Nodup := by
    decide
  obtain ⟨rules, hrules, -, hkeys, -⟩ := rules_in_order_iff hnodup
  exact ⟨hnodup, rules, hrules, hkeys ["semi"] ["quotes"] rfl⟩

/-- With two overrides behind the one that is taken out, the second comes before the first. -/
theorem rules_turned :
    (Members.keys (overriding ["no-restricted-imports", "semi", "quotes"]).overrides).Nodup ∧
    ∃ rules, (entry (overriding ["no-restricted-imports", "semi", "quotes"])).get? "rules" =
        some (.object rules) ∧
      Members.keys rules = ["quotes", "semi", "no-restricted-imports"] ∧
      ¬ InOrder (overriding ["no-restricted-imports", "semi", "quotes"]) rules := by
  refine ⟨by decide, _, rfl, by decide, ?_⟩
  unfold InOrder
  decide

end FlatConfig

end FolderFlow
