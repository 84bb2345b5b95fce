import FolderFlow.Config.Validate
import FolderFlow.Proofs.Except
import Mathlib.Tactic.ByContra
import Mathlib.Tactic.Tauto

/-!
# The first fault

What a reader asks for can be written down as a row of checks, each with the fault that is reported
where it does not hold. `Reports` says that a reader stops at the first check that fails and reports
its fault. The rules below put such rows together along the reader: a reader that runs two others in
turn works through the checks of both (`Reports.bind`), and one that reads items works through the
checks of each item in turn (`reports_eachFrom`).

A check need not make sense where an earlier one fails; what is behind the first failing check has
no part in the fault.
-/

namespace FolderFlow

/-- What must hold, and the fault that is reported where it does not. -/
structure Check where
  holds : Prop
  fault : ConfigError

def AllHold (checks : List Check) : Prop :=
  ∀ c ∈ checks, c.holds

/-- The first check that does not hold has this fault. -/
inductive FirstFault : List Check → ConfigError → Prop where
  | here {c : Check} {checks : List Check} : ¬ c.holds → FirstFault (c :: checks) c.fault
  | later {c : Check} {checks : List Check} {e : ConfigError} :
      c.holds → FirstFault checks e → FirstFault (c :: checks) e

variable {c : Check} {checks checks' : List Check} {e e' : ConfigError}

/-! ## Rows of checks -/

theorem allHold_nil : AllHold [] :=
  fun _ hc => absurd hc List.not_mem_nil

theorem allHold_cons_iff : AllHold (c :: checks) ↔ c.holds ∧ AllHold checks :=
  List.forall_mem_cons

theorem not_firstFault_nil : ¬ FirstFault [] e :=
  nofun

theorem firstFault_cons_iff : FirstFault (c :: checks) e ↔
    (¬ c.holds ∧ c.fault = e) ∨ (c.holds ∧ FirstFault checks e) := by
  constructor
  · intro h
    cases h with
    | here hc => exact Or.inl ⟨hc, rfl⟩
    | later hc hrest => exact Or.inr ⟨hc, hrest⟩
  · rintro (⟨hc, rfl⟩ | ⟨hc, hrest⟩)
    · exact .here hc
    · exact .later hc hrest

theorem firstFault_append_iff : FirstFault (checks ++ checks') e ↔
    FirstFault checks e ∨ (AllHold checks ∧ FirstFault checks' e) := by
  induction checks with
  | nil => simp [allHold_nil, not_firstFault_nil]
  | cons c checks ih =>
    rw [List.cons_append, firstFault_cons_iff, firstFault_cons_iff, allHold_cons_iff, ih]
    tauto

/-- The fault is that of one of the checks. -/
theorem FirstFault.exists_mem (h : FirstFault checks e) :
    ∃ c ∈ checks, ¬ c.holds ∧ c.fault = e := by
  induction h with
  | here hc => exact ⟨_, List.mem_cons_self, hc, rfl⟩
  | later _ _ ih =>
    obtain ⟨c, hmem, hc⟩ := ih
    exact ⟨c, List.mem_cons_of_mem _ hmem, hc⟩

theorem FirstFault.not_allHold (h : FirstFault checks e) : ¬ AllHold checks := by
  obtain ⟨c, hmem, hc, -⟩ := h.exists_mem
  exact fun hall => hc (hall c hmem)

/-- There is a first fault unless all checks hold. -/
theorem allHold_iff : AllHold checks ↔ ∀ e, ¬ FirstFault checks e := by
  constructor
  · exact fun hall e h => h.not_allHold hall
  · intro hnone
    induction checks with
    | nil => exact allHold_nil
    | cons c checks ih =>
      have hc : c.holds := by
        by_contra hc
        exact hnone c.fault (.here hc)
      exact allHold_cons_iff.mpr ⟨hc, ih fun e h => hnone e (.later hc h)⟩

/-- The first fault of items with one check each is that of the first item that fails. -/
theorem firstFault_map_iff {α : Type} {check : α → Check} {items : List α} :
    FirstFault (items.map check) e ↔ ∃ before item after, items = before ++ item :: after ∧
      (∀ a ∈ before, (check a).holds) ∧ ¬ (check item).holds ∧ (check item).fault = e := by
  constructor
  · intro h
    induction items with
    | nil => exact absurd h not_firstFault_nil
    | cons first items ih =>
      rcases firstFault_cons_iff.mp h with ⟨hfirst, he⟩ | ⟨hfirst, hrest⟩
      · exact ⟨[], first, items, rfl, nofun, hfirst, he⟩
      · obtain ⟨before, item, after, rfl, hbefore, hitem⟩ := ih hrest
        exact ⟨first :: before, item, after, rfl, List.forall_mem_cons.mpr ⟨hfirst, hbefore⟩, hitem⟩
  · rintro ⟨before, item, after, rfl, hbefore, hitem, rfl⟩
    rw [List.map_append, firstFault_append_iff]
    exact Or.inr ⟨List.forall_mem_map.mpr hbefore, .here hitem⟩

/-! ## Checks of items -/

/-- The checks of the items in turn, each with its index. -/
def checksFrom (check : Nat → Json → List Check) (index : Nat) : List Json → List Check
  | [] => []
  | item :: items => check index item ++ checksFrom check (index + 1) items

variable {check : Nat → Json → List Check} {items : List Json} {index : Nat}

theorem checksFrom_single (check : Json → Check) (index : Nat) (items : List Json) :
    checksFrom (fun _ item => [check item]) index items = items.map check := by
  induction items generalizing index with
  | nil => rfl
  | cons item items ih => rw [checksFrom, ih, List.map_cons, List.singleton_append]

/-- The first fault of a list lies in the first item that has one. -/
theorem firstFault_checksFrom_iff : FirstFault (checksFrom check index items) e ↔
    ∃ k item, items[k]? = some item ∧ FirstFault (check (index + k) item) e ∧
      ∀ k' < k, ∀ item', items[k']? = some item' → AllHold (check (index + k') item') := by
  induction items generalizing index with
  | nil => simp [checksFrom, not_firstFault_nil]
  | cons first items ih =>
    rw [checksFrom, firstFault_append_iff, ih]
    constructor
    · rintro (hfirst | ⟨hfirst, k, item, hitem, hfault, hbefore⟩)
      · exact ⟨0, first, rfl, hfirst, fun k' hk => absurd hk (Nat.not_lt_zero k')⟩
      · refine ⟨k + 1, item, hitem, ?_, fun k' hk item' hitem' => ?_⟩
        · rwa [show index + (k + 1) = index + 1 + k by omega]
        · cases k' with
          | zero =>
            obtain rfl := Option.some.inj hitem'
            exact hfirst
          | succ k' =>
            rw [show index + (k' + 1) = index + 1 + k' by omega]
            exact hbefore k' (Nat.lt_of_succ_lt_succ hk) item' hitem'
    · rintro ⟨k, item, hitem, hfault, hbefore⟩
      cases k with
      | zero =>
        obtain rfl := Option.some.inj hitem
        exact Or.inl hfault
      | succ k =>
        refine Or.inr ⟨hbefore 0 (Nat.succ_pos k) first rfl, k, item, hitem, ?_, ?_⟩
        · rwa [show index + (k + 1) = index + 1 + k by omega] at hfault
        · intro k' hk item' hitem'
          have hall := hbefore (k' + 1) (Nat.succ_lt_succ hk) item' hitem'
          rwa [show index + (k' + 1) = index + 1 + k' by omega] at hall

/-! ## Readers -/

variable {α β : Type} {x : Except ConfigError α} {f : α → Except ConfigError β} {p : Prop}

/-- The reader fails with the first fault, and succeeds where all checks hold. -/
def Reports (x : Except ConfigError α) (checks : List Check) : Prop :=
  ∀ e, x = .error e ↔ FirstFault checks e

theorem Reports.exists_ok_iff (h : Reports x checks) : (∃ a, x = .ok a) ↔ AllHold checks := by
  rw [allHold_iff]
  simp only [← h _]
  cases x <;> simp

theorem reports_ok {a : α} (h : AllHold checks) : Reports (.ok a) checks :=
  fun e => iff_of_false nofun (allHold_iff.mp h e)

theorem reports_error (hp : ¬ p) :
    Reports (.error e : Except ConfigError α) (⟨p, e⟩ :: checks) := by
  intro e'
  rw [firstFault_cons_iff, or_iff_left fun h => hp h.1, and_iff_right hp, Except.error.injEq]

/-- A check that holds may be put in front. -/
theorem Reports.cons (h : Reports x checks) (hc : c.holds) : Reports x (c :: checks) := by
  intro e
  rw [h e, firstFault_cons_iff, or_iff_right fun hnot => hnot.1 hc, and_iff_right hc]

theorem Reports.bind (h : Reports x checks) (hf : ∀ a, x = .ok a → Reports (f a) checks') :
    Reports (x >>= f) (checks ++ checks') := by
  intro e
  rw [bind_eq_error_iff, h e, firstFault_append_iff, ← h.exists_ok_iff]
  refine or_congr_right ?_
  constructor
  · rintro ⟨a, hx, ha⟩
    exact ⟨⟨a, hx⟩, (hf a hx e).mp ha⟩
  · rintro ⟨⟨a, hx⟩, hfault⟩
    exact ⟨a, hx, (hf a hx e).mpr hfault⟩

theorem Reports.map {g : α → β} (h : Reports x checks) : Reports (g <$> x) checks :=
  fun e => map_eq_error_iff.trans (h e)

/-- What is made of the outcome in the end has no part in the fault. -/
theorem Reports.bind_pure (h : Reports x checks) (g : α → β) :
    Reports (x >>= fun a => pure (g a)) checks := by
  rw [← List.append_nil checks]
  exact h.bind fun a _ => reports_ok allHold_nil

theorem reports_orError {found : Option α} (h : (∃ a, found = some a) ↔ p) :
    Reports (Config.orError e found) [⟨p, e⟩] := by
  cases found with
  | none => exact reports_error fun hp => by simpa using h.mpr hp
  | some a => exact reports_ok (allHold_cons_iff.mpr ⟨h.mp ⟨a, rfl⟩, allHold_nil⟩)

/-- A reader that knows one fault only. -/
theorem reports_single (hok : (∃ a, x = .ok a) ↔ p) (hfault : ∀ e', x = .error e' → e' = e) :
    Reports x [⟨p, e⟩] := by
  cases x with
  | ok a => exact reports_ok (allHold_cons_iff.mpr ⟨hok.mp ⟨a, rfl⟩, allHold_nil⟩)
  | error e' =>
    obtain rfl := hfault e' rfl
    exact reports_error fun hp => by simpa using hok.mpr hp

theorem reports_eachFrom {read : Nat → Json → Except ConfigError α}
    (h : ∀ index item, Reports (read index item) (check index item)) (index : Nat)
    (items : List Json) :
    Reports (Config.eachFrom read index items) (checksFrom check index items) := by
  induction items generalizing index with
  | nil => exact reports_ok allHold_nil
  | cons item items ih =>
    exact (h index item).bind fun a _ => (ih (index + 1)).bind_pure (a :: ·)

end FolderFlow
