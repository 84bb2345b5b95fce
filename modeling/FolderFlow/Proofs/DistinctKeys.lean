import FolderFlow.Json.Parser
import Mathlib.Data.List.Perm.Basic
import Mathlib.Data.List.Nodup

/-!
# Objects without repeated keys

In an object without repeated keys a look-up finds exactly the members that are there
(`Members.find?_eq_some_iff`), so each operation is known by what it does to a single key. The
values that the reader gives have no repeated keys at any depth (`Json.keysDistinct_of_parse?`).
-/

namespace FolderFlow

/-- In a list without repeated keys each key is found with its one value. -/
theorem lookup_eq_some_iff_of_nodup {α : Type} {entries : List (String × α)} {key : String} {a : α}
    (h : (entries.map Prod.fst).Nodup) : entries.lookup key = some a ↔ (key, a) ∈ entries := by
  rw [List.lookup_eq_some_iff]
  constructor
  · rintro ⟨before, after, rfl, -⟩
    exact List.mem_append_right _ List.mem_cons_self
  · intro hmem
    obtain ⟨before, after, rfl⟩ := List.append_of_mem hmem
    refine ⟨before, after, rfl, fun entry hentry => ?_⟩
    rw [List.map_append, List.map_cons, List.nodup_append] at h
    have hne := h.2.2 entry.1 (List.mem_map_of_mem hentry) key List.mem_cons_self
    simpa using Ne.symm hne

theorem lookup_eq_none_iff_notMem {α : Type} {entries : List (String × α)} {key : String} :
    entries.lookup key = none ↔ key ∉ entries.map Prod.fst := by
  rw [List.lookup_eq_none_iff, List.mem_map]
  constructor
  · rintro h ⟨entry, hentry, rfl⟩
    exact absurd (h entry hentry) (by simp)
  · intro h entry hentry
    rw [bne_iff_ne]
    rintro rfl
    exact h ⟨entry, hentry, rfl⟩

theorem nodup_keys_concat {α : Type} {entries : List (String × α)} {key : String} {a : α}
    (h : (entries.map Prod.fst).Nodup) (hnew : key ∉ entries.map Prod.fst) :
    ((entries ++ [(key, a)]).map Prod.fst).Nodup := by
  rw [List.map_append, List.map_singleton, List.nodup_append]
  refine ⟨h, List.nodup_singleton _, ?_⟩
  rintro k hk k' hk' rfl
  obtain rfl : k = key := List.mem_singleton.mp hk'
  exact hnew hk

/-! ## Members -/

namespace Members

variable {members : Members} {key k : String} {value v : Json}

@[simp] theorem keys_cons (member : String × Json) (members : Members) :
    keys (member :: members) = member.1 :: keys members :=
  rfl

theorem find?_eq_some_iff (h : (keys members).Nodup) :
    find? members key = some value ↔ (key, value) ∈ members :=
  lookup_eq_some_iff_of_nodup h

/-! ### Insertion -/

theorem insert_of_notMem (h : key ∉ keys members) :
    insert members key value = members ++ [(key, value)] := by
  induction members with
  | nil => rfl
  | cons head rest ih =>
    have hne : head.1 ≠ key := Ne.symm (List.ne_of_not_mem_cons h)
    rw [insert, if_neg hne, ih (List.not_mem_of_not_mem_cons h), List.cons_append]

theorem keys_insert_of_mem (h : key ∈ keys members) :
    keys (insert members key value) = keys members := by
  induction members with
  | nil => exact absurd h List.not_mem_nil
  | cons head rest ih =>
    rw [insert]
    split
    · rfl
    · rename_i hne
      rw [keys_cons, keys_cons, ih ((List.mem_cons.mp h).resolve_left (Ne.symm hne))]

theorem nodup_keys_insert (h : (keys members).Nodup) :
    (keys (insert members key value)).Nodup := by
  by_cases hmem : key ∈ keys members
  · rwa [keys_insert_of_mem hmem]
  · rw [insert_of_notMem hmem]
    exact nodup_keys_concat h hmem

theorem mem_insert (h : (k, v) ∈ insert members key value) :
    (k, v) = (key, value) ∨ (k, v) ∈ members := by
  induction members with
  | nil => exact Or.inl (List.mem_singleton.mp h)
  | cons head rest ih =>
    rw [insert] at h
    split at h
    · rename_i hkey
      subst hkey
      rcases List.mem_cons.mp h with h | h
      · exact Or.inl h
      · exact Or.inr (List.mem_cons_of_mem _ h)
    · rcases List.mem_cons.mp h with h | h
      · exact Or.inr (h ▸ List.mem_cons_self)
      · exact (ih h).imp_right (List.mem_cons_of_mem _)

@[simp] theorem find?_insert_self : find? (insert members key value) key = some value := by
  induction members with
  | nil => simp [insert, find?]
  | cons head rest ih =>
    rw [insert]
    split
    · simp [find?, *]
    · rename_i hne
      rw [find?, List.lookup_cons, beq_eq_false_iff_ne.mpr (Ne.symm hne)]
      exact ih

theorem find?_insert_of_ne (hne : k ≠ key) :
    find? (insert members key value) k = find? members k := by
  induction members with
  | nil => simp [insert, find?, hne]
  | cons head rest ih =>
    rw [insert]
    split
    · rename_i hkey
      subst hkey
      rw [find?, find?, List.lookup_cons, List.lookup_cons, beq_eq_false_iff_ne.mpr hne]
    · rw [find?, find?, List.lookup_cons, List.lookup_cons]
      split
      · rfl
      · exact ih

/-! ### Removal -/

theorem perm_dropHead {head : String × Json} : (dropHead (head :: members)).Perm members := by
  rw [dropHead]
  split
  · rename_i hlast
    rw [List.getLast?_eq_none_iff.mp hlast]
  · rename_i last hlast
    obtain ⟨front, rfl⟩ := List.getLast?_eq_some_iff.mp hlast
    rw [List.dropLast_concat]
    exact (List.perm_append_singleton last front).symm

/-- The last member moves, but nothing is lost and only the key is taken out. -/
theorem perm_remove (h : (keys members).Nodup) :
    (remove members key).Perm (members.filter fun member => member.1 != key) := by
  induction members with
  | nil => exact List.Perm.refl _
  | cons head rest ih =>
    obtain ⟨hhead, hrest⟩ := List.nodup_cons.mp h
    rw [remove]
    split
    · rename_i hkey
      subst hkey
      have hkeep : ∀ member ∈ rest, (member.1 != head.1) = true := by
        intro member hmem
        rw [bne_iff_ne]
        rintro heq
        exact hhead (heq ▸ List.mem_map_of_mem hmem)
      rw [List.filter_cons_of_neg (by simp), List.filter_eq_self.mpr hkeep]
      exact perm_dropHead
    · rename_i hne
      rw [List.filter_cons_of_pos (by simpa using hne)]
      exact (ih hrest).cons head

theorem nodup_keys_remove (h : (keys members).Nodup) : (keys (remove members key)).Nodup := by
  have hfilter : (keys (members.filter fun member => member.1 != key)).Nodup :=
    h.sublist (List.filter_sublist.map Prod.fst)
  exact ((perm_remove h).map Prod.fst).nodup_iff.mpr hfilter

theorem notMem_keys_remove (h : (keys members).Nodup) : key ∉ keys (remove members key) := by
  intro hmem
  obtain ⟨member, hmember, heq⟩ := List.mem_map.mp hmem
  have hkept := List.of_mem_filter ((perm_remove h).mem_iff.mp hmember)
  exact absurd heq (by simpa using hkept)

theorem find?_remove_of_ne (h : (keys members).Nodup) (hne : k ≠ key) :
    find? (remove members key) k = find? members k := by
  refine Option.ext fun v => ?_
  rw [find?_eq_some_iff (nodup_keys_remove h), find?_eq_some_iff h, (perm_remove h).mem_iff,
    List.mem_filter, and_iff_left (by simpa using hne)]

end Members

/-! ## Values -/

namespace Json

open Members

/-- No object within the value has two members with one key. -/
inductive KeysDistinct : Json → Prop where
  | null : KeysDistinct .null
  | bool (b : Bool) : KeysDistinct (.bool b)
  | number (n : Number) : KeysDistinct (.number n)
  | string (s : String) : KeysDistinct (.string s)
  | array {items : List Json} : (∀ item ∈ items, KeysDistinct item) → KeysDistinct (.array items)
  | object {members : Members} : (keys members).Nodup →
      (∀ member ∈ members, KeysDistinct member.2) → KeysDistinct (.object members)

namespace KeysDistinct

variable {members : Members} {j value : Json} {key : String}

theorem nodup_keys (h : KeysDistinct (.object members)) : (keys members).Nodup := by
  cases h with
  | object hkeys _ => exact hkeys

theorem of_mem (h : KeysDistinct (.object members)) (hmem : (key, value) ∈ members) :
    KeysDistinct value := by
  cases h with
  | object _ hvalues => exact hvalues _ hmem

theorem of_find? (h : KeysDistinct (.object members)) (hfind : find? members key = some value) :
    KeysDistinct value :=
  h.of_mem ((find?_eq_some_iff h.nodup_keys).mp hfind)

theorem of_get? (h : KeysDistinct j) (hget : j.get? key = some value) : KeysDistinct value := by
  cases j with
  | object members => exact h.of_find? hget
  | _ => simp [get?] at hget

theorem nodup_keys_asObject? (h : KeysDistinct j) : (keys (j.asObject?.getD [])).Nodup := by
  cases j with
  | object members => exact h.nodup_keys
  | _ => exact List.nodup_nil

theorem insert (h : KeysDistinct (.object members)) (hvalue : KeysDistinct value) :
    KeysDistinct (.object (Members.insert members key value)) := by
  refine .object (nodup_keys_insert h.nodup_keys) ?_
  rintro ⟨k, v⟩ hmem
  rcases mem_insert hmem with heq | hmem
  · obtain ⟨-, rfl⟩ := Prod.mk.inj heq
    exact hvalue
  · exact h.of_mem hmem

theorem foldl_insert {pairs : Members} (h : KeysDistinct (.object members))
    (hpairs : ∀ pair ∈ pairs, KeysDistinct pair.2) :
    KeysDistinct (.object (pairs.foldl (fun members (key, value) =>
      Members.insert members key value) members)) := by
  induction pairs generalizing members with
  | nil => exact h
  | cons pair pairs ih =>
    obtain ⟨hpair, hpairs⟩ := List.forall_mem_cons.mp hpairs
    exact ih (h.insert hpair) hpairs

end KeysDistinct

theorem keysDistinct_ofPairs {pairs : Members} (h : ∀ pair ∈ pairs, KeysDistinct pair.2) :
    KeysDistinct (ofPairs pairs) :=
  KeysDistinct.foldl_insert (.object List.nodup_nil (by simp)) h

/-! ## What is read -/

section Read

variable {α : Type} {item : List Char → Option (α × List Char)} {P : α → Prop} {closing : Char}
  {value : List Char → Option (Json × List Char)} {cs rest : List Char} {items : List α} {j : Json}

/-- What holds of each item that can be read holds of all items of a list. -/
theorem forall_of_readItems (hitem : ∀ cs a rest, item cs = some (a, rest) → P a) {fuel : Nat}
    (h : readItems item closing fuel cs = some (items, rest)) : ∀ a ∈ items, P a := by
  induction fuel generalizing cs items rest with
  | zero => simp [readItems] at h
  | succ fuel ih =>
    rw [readItems] at h
    obtain ⟨⟨first, rest₁⟩, hfirst, h⟩ := Option.bind_eq_some_iff.mp h
    have hfirst := hitem _ _ _ hfirst
    dsimp only at h
    split at h
    · split at h
      · obtain ⟨⟨more, rest₂⟩, hmore, h⟩ := Option.bind_eq_some_iff.mp h
        obtain ⟨rfl, -⟩ := Prod.mk.inj (Option.some.inj h)
        exact List.forall_mem_cons.mpr ⟨hfirst, ih hmore⟩
      · split at h
        · obtain ⟨rfl, -⟩ := Prod.mk.inj (Option.some.inj h)
          exact List.forall_mem_singleton.mpr hfirst
        · simp at h
    · simp at h

theorem forall_of_readEnclosed (hitem : ∀ cs a rest, item cs = some (a, rest) → P a)
    (h : readEnclosed item closing cs = some (items, rest)) : ∀ a ∈ items, P a := by
  rw [readEnclosed] at h
  split at h
  · simp at h
  · split at h
    · obtain ⟨rfl, -⟩ := Prod.mk.inj (Option.some.inj h)
      simp
    · exact forall_of_readItems hitem h

theorem exists_of_readMember {member : String × Json}
    (h : readMember value cs = some (member, rest)) :
    ∃ cs', value cs' = some (member.2, rest) := by
  unfold readMember at h
  split at h
  · obtain ⟨⟨key, rest₁⟩, -, h⟩ := Option.bind_eq_some_iff.mp h
    dsimp only at h
    split at h
    · obtain ⟨⟨j, rest₂⟩, hvalue, h⟩ := Option.bind_eq_some_iff.mp h
      obtain ⟨rfl, rfl⟩ := Prod.mk.inj (Option.some.inj h)
      exact ⟨_, hvalue⟩
    · simp at h
  · simp at h

theorem keysDistinct_of_readName {name : String} (hj : KeysDistinct j) {j' : Json}
    (h : readName name j cs = some (j', rest)) : KeysDistinct j' := by
  rw [readName] at h
  split at h
  · obtain ⟨rfl, -⟩ := Prod.mk.inj (Option.some.inj h)
    exact hj
  · simp at h

theorem keysDistinct_of_readNumber (h : readNumber cs = some (j, rest)) : KeysDistinct j := by
  rw [readNumber] at h
  obtain ⟨⟨text, rest₁⟩, -, h⟩ := Option.bind_eq_some_iff.mp h
  obtain ⟨n, -, h⟩ := Option.bind_eq_some_iff.mp h
  obtain ⟨rfl, -⟩ := Prod.mk.inj (Option.some.inj h)
  exact .number n

theorem keysDistinct_of_readValue {levels : Nat} (h : readValue levels cs = some (j, rest)) :
    KeysDistinct j := by
  induction levels generalizing cs j rest with
  | zero =>
    rw [readValue.eq_def] at h
    split at h
    · obtain ⟨⟨s, rest₁⟩, -, h⟩ := Option.map_eq_some_iff.mp h
      obtain ⟨rfl, -⟩ := Prod.mk.inj h
      exact .string s
    · simp at h
    · simp at h
    · exact keysDistinct_of_readName .null h
    · exact keysDistinct_of_readName (.bool true) h
    · exact keysDistinct_of_readName (.bool false) h
    · exact keysDistinct_of_readNumber h
  | succ levels ih =>
    rw [readValue.eq_def] at h
    split at h
    · obtain ⟨⟨s, rest₁⟩, -, h⟩ := Option.map_eq_some_iff.mp h
      obtain ⟨rfl, -⟩ := Prod.mk.inj h
      exact .string s
    · obtain ⟨⟨items, rest₁⟩, hitems, h⟩ := Option.map_eq_some_iff.mp h
      obtain ⟨rfl, -⟩ := Prod.mk.inj h
      exact .array (forall_of_readEnclosed (fun _ _ _ hitem => ih hitem) hitems)
    · obtain ⟨⟨pairs, rest₁⟩, hpairs, h⟩ := Option.map_eq_some_iff.mp h
      obtain ⟨rfl, -⟩ := Prod.mk.inj h
      refine keysDistinct_ofPairs (forall_of_readEnclosed (fun _ _ _ hmember => ?_) hpairs)
      obtain ⟨_, hvalue⟩ := exists_of_readMember hmember
      exact ih hvalue
    · exact keysDistinct_of_readName .null h
    · exact keysDistinct_of_readName (.bool true) h
    · exact keysDistinct_of_readName (.bool false) h
    · exact keysDistinct_of_readNumber h

/-- A repeated key takes its last value, so no key is left twice. -/
theorem keysDistinct_of_parse? {text : String} (h : parse? text = some j) : KeysDistinct j := by
  rw [parse?, parseWithin?] at h
  obtain ⟨⟨value, rest⟩, hvalue, h⟩ := Option.bind_eq_some_iff.mp h
  dsimp only at h
  split at h
  · obtain rfl := Option.some.inj h
    exact keysDistinct_of_readValue hvalue
  · simp at h

end Read

end Json

end FolderFlow
