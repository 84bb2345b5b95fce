import FolderFlow.Config.Load
import FolderFlow.Proofs.DistinctKeys

/-!
# Tables without repeated keys

A line of a document is refused where it would give a key twice, so the tables that the lines build
up never hold a key twice (`Toml.Document.distinct_ofStatements`). With the reader of values that
makes what is read from a document a value without repeated keys, as it is for the other format
(`ConfigFormat.keysDistinct_of_parse?`).
-/

namespace FolderFlow.Toml

open Json (KeysDistinct)

/-! ## Entries -/

theorem toMembers_eq_map (entries : Entries) :
    Node.toMembers entries = entries.map fun entry => (entry.1, entry.2.toJson) := by
  induction entries with
  | nil => rw [Node.toMembers, List.map_nil]
  | cons entry entries ih =>
    obtain ⟨key, node⟩ := entry
    rw [Node.toMembers, ih, List.map_cons]

theorem toItems_eq_map (items : List Entries) :
    Node.toItems items = items.map fun entries => .object (Node.toMembers entries) := by
  induction items with
  | nil => rw [Node.toItems, List.map_nil]
  | cons entries items ih => rw [Node.toItems, ih, List.map_cons]

/-- The node holds no table with a repeated key. -/
def Node.Distinct (node : Node) : Prop :=
  node.toJson.KeysDistinct

namespace Entries

variable {entries inner : Entries} {items : List Entries} {node : Node} {key : String}
  {origin : Origin} {j : Json}

/-- No key is repeated, here and in all tables within. -/
structure Distinct (entries : Entries) : Prop where
  nodup : (entries.map Prod.fst).Nodup
  nodes : ∀ entry ∈ entries, entry.2.Distinct

theorem distinct_nil : Distinct [] :=
  ⟨List.nodup_nil, by simp⟩

theorem keysDistinct_iff : KeysDistinct (.object (Node.toMembers entries)) ↔ Distinct entries := by
  rw [toMembers_eq_map]
  have hkeys : Members.keys (entries.map fun entry => (entry.1, entry.2.toJson)) =
      entries.map Prod.fst := by
    rw [Members.keys, List.map_map]
    rfl
  constructor
  · intro h
    refine ⟨hkeys ▸ h.nodup_keys, fun entry hentry => ?_⟩
    exact h.of_mem (List.mem_map_of_mem hentry)
  · intro h
    refine .object (hkeys ▸ h.nodup) fun member hmember => ?_
    obtain ⟨entry, hentry, rfl⟩ := List.mem_map.mp hmember
    exact h.nodes entry hentry

theorem distinct_table_iff : (Node.table origin entries).Distinct ↔ Distinct entries := by
  rw [Node.Distinct, Node.toJson, keysDistinct_iff]

theorem distinct_tables_iff : (Node.tables items).Distinct ↔ ∀ item ∈ items, Distinct item := by
  rw [Node.Distinct, Node.toJson, toItems_eq_map]
  constructor
  · intro h item hitem
    cases h with
    | array hall => exact keysDistinct_iff.mp (hall _ (List.mem_map_of_mem hitem))
  · intro h
    refine .array fun j hj => ?_
    obtain ⟨item, hitem, rfl⟩ := List.mem_map.mp hj
    exact keysDistinct_iff.mpr (h item hitem)

theorem distinct_value_iff : (Node.value j).Distinct ↔ j.KeysDistinct := by
  rw [Node.Distinct, Node.toJson]

theorem Distinct.of_find? (h : Distinct entries) (hfind : find? entries key = some node) :
    node.Distinct :=
  h.nodes _ ((lookup_eq_some_iff_of_nodup h.nodup).mp hfind)

theorem Distinct.append (h : Distinct entries) (hnew : find? entries key = none)
    (hnode : node.Distinct) : Distinct (append entries key node) := by
  refine ⟨?_, List.forall_mem_append.mpr ⟨h.nodes, List.forall_mem_singleton.mpr hnode⟩⟩
  exact nodup_keys_concat h.nodup (lookup_eq_none_iff_notMem.mp hnew)

theorem Distinct.replace (h : Distinct entries) (key : String) (hnode : node.Distinct) :
    Distinct (replace entries key node) := by
  constructor
  · have hkeys : (Entries.replace entries key node).map Prod.fst = entries.map Prod.fst := by
      rw [Entries.replace, List.map_map]
      refine List.map_congr_left fun entry _ => ?_
      dsimp only [Function.comp]
      split <;> rfl
    rw [hkeys]
    exact h.nodup
  · intro entry hentry
    obtain ⟨old, hold, rfl⟩ := List.mem_map.mp hentry
    dsimp only
    split
    · exact hnode
    · exact h.nodes old hold

theorem Distinct.erase (h : Distinct entries) (key : String) : Distinct (erase entries key) :=
  ⟨h.nodup.sublist (List.filter_sublist.map Prod.fst),
    fun entry hentry => h.nodes entry (List.mem_of_mem_filter hentry)⟩

theorem find?_erase (entries : Entries) (key : String) : find? (erase entries key) key = none := by
  refine lookup_eq_none_iff_notMem.mpr fun hmem => ?_
  obtain ⟨entry, hentry, rfl⟩ := List.mem_map.mp hmem
  have hne : (entry.1 != entry.1) = true := (List.mem_filter.mp hentry).2
  simp at hne

/-! ## What a line does -/

/-- The change of a table, where it is allowed, repeats no key. -/
def KeepsDistinct (change : Origin → Entries → Option Entries) : Prop :=
  ∀ {origin entries entries'}, Distinct entries → change origin entries = some entries' →
    Distinct entries'

theorem distinct_getLastD (h : ∀ item ∈ items, Distinct item) : Distinct (items.getLastD []) := by
  rw [List.getLastD_eq_getLast?]
  cases hlast : items.getLast? with
  | none => exact distinct_nil
  | some last => exact h last (List.mem_of_getLast? hlast)

/-- A change at a path repeats no key if it repeats none where it takes place. -/
theorem keepsDistinct_update {change : Origin → Entries → Option Entries}
    (hchange : KeepsDistinct change) (dotted : Bool) (path : List String) :
    KeepsDistinct fun origin entries => update dotted change origin path entries := by
  induction path with
  | nil =>
    intro origin entries entries' h heq
    exact hchange h heq
  | cons key path ih =>
    intro origin entries entries' h heq
    dsimp only at heq
    rw [update] at heq
    cases hfind : find? entries key with
    | none =>
      rw [hfind] at heq
      obtain ⟨inner, hinner, rfl⟩ := Option.map_eq_some_iff.mp heq
      exact h.append hfind (distinct_table_iff.mpr (ih distinct_nil hinner))
    | some node =>
      have hnode := h.of_find? hfind
      rw [hfind] at heq
      cases node with
      | value j => simp at heq
      | table origin' inner =>
        dsimp only at heq
        split at heq
        · simp at heq
        · obtain ⟨inner', hinner, rfl⟩ := Option.map_eq_some_iff.mp heq
          have hold := distinct_table_iff.mp hnode
          exact h.replace key (distinct_table_iff.mpr (ih hold hinner))
      | tables items =>
        obtain ⟨inner', hinner, rfl⟩ := Option.map_eq_some_iff.mp heq
        have hitems := distinct_tables_iff.mp hnode
        have hlast := ih (distinct_getLastD hitems) hinner
        refine h.replace key (distinct_tables_iff.mpr ?_)
        refine List.forall_mem_append.mpr ⟨fun item hitem => ?_,
          List.forall_mem_singleton.mpr hlast⟩
        exact hitems item (List.dropLast_subset _ hitem)

theorem distinct_assign {path : List String} {entries' : Entries} (hj : j.KeysDistinct)
    (h : Distinct entries) (heq : assign path key j entries = some entries') :
    Distinct entries' := by
  refine keepsDistinct_update ?_ true path h heq
  intro origin entries entries' h heq
  dsimp only at heq
  split at heq
  · simp at heq
  · split at heq
    · simp at heq
    · rename_i hnew
      obtain rfl := Option.some.inj heq
      exact h.append (by simpa using hnew) (distinct_value_iff.mpr hj)

theorem distinct_openTable {path : List String} {entries' : Entries} (h : Distinct entries)
    (heq : openTable path key entries = some entries') : Distinct entries' := by
  refine keepsDistinct_update ?_ false path h heq
  intro origin entries entries' h heq
  dsimp only at heq
  split at heq
  · rename_i hnew
    obtain rfl := Option.some.inj heq
    exact h.append hnew (distinct_table_iff.mpr distinct_nil)
  · rename_i inner hfound
    obtain rfl := Option.some.inj heq
    have hinner := distinct_table_iff.mp (h.of_find? hfound)
    exact (h.erase key).append (find?_erase entries key) (distinct_table_iff.mpr hinner)
  · simp at heq

theorem distinct_openItem {path : List String} {entries' : Entries} (h : Distinct entries)
    (heq : openItem path key entries = some entries') : Distinct entries' := by
  refine keepsDistinct_update ?_ false path h heq
  intro origin entries entries' h heq
  dsimp only at heq
  split at heq
  · rename_i hnew
    obtain rfl := Option.some.inj heq
    exact h.append hnew (distinct_tables_iff.mpr (List.forall_mem_singleton.mpr distinct_nil))
  · rename_i items hfound
    obtain rfl := Option.some.inj heq
    have hitems := distinct_tables_iff.mp (h.of_find? hfound)
    refine h.replace key (distinct_tables_iff.mpr ?_)
    exact List.forall_mem_append.mpr ⟨hitems, List.forall_mem_singleton.mpr distinct_nil⟩
  · simp at heq

end Entries

open Entries (Distinct)

/-! ## Documents -/

/-- What stands in a table is kept by whatever is done to it step by step. -/
theorem of_foldlM {α β : Type} {step : β → α → Option β} {P : β → Prop} {Q : α → Prop}
    (hstep : ∀ b a b', P b → Q a → step b a = some b' → P b') {as : List α} {b b' : β}
    (hb : P b) (has : ∀ a ∈ as, Q a) (h : as.foldlM step b = some b') : P b' := by
  induction as generalizing b with
  | nil =>
    obtain rfl := Option.some.inj h
    exact hb
  | cons a as ih =>
    obtain ⟨ha, has⟩ := List.forall_mem_cons.mp has
    rw [List.foldlM_cons] at h
    obtain ⟨next, hnext, h⟩ := Option.bind_eq_some_iff.mp h
    exact ih (hstep b a next hb ha hnext) has h

/-- The value that the line gives, if it gives one, has no repeated keys. -/
def Statement.Distinct : Statement → Prop
  | assign _ value => value.KeysDistinct
  | _ => True

namespace Document

theorem distinct_add {d d' : Document} {statement : Statement} (h : Distinct d.entries)
    (hstatement : statement.Distinct) (heq : d.add statement = some d') :
    Distinct d'.entries := by
  cases statement with
  | assign key value =>
    obtain ⟨entries, hentries, rfl⟩ := Option.map_eq_some_iff.mp heq
    refine Entries.keepsDistinct_update ?_ false d.current h hentries
    intro origin entries entries' h heq
    exact Entries.distinct_assign hstatement h heq
  | openTable key =>
    obtain ⟨entries, hentries, rfl⟩ := Option.map_eq_some_iff.mp heq
    exact Entries.distinct_openTable h hentries
  | openItem key =>
    obtain ⟨entries, hentries, rfl⟩ := Option.map_eq_some_iff.mp heq
    exact Entries.distinct_openItem h hentries

/-- No run of lines builds up a table with a repeated key. -/
theorem distinct_ofStatements {statements : List Statement} {d : Document}
    (hall : ∀ statement ∈ statements, statement.Distinct) (h : ofStatements statements = some d) :
    Distinct d.entries :=
  of_foldlM (P := fun d : Document => Distinct d.entries)
    (fun _ _ _ hd hstatement heq => distinct_add hd hstatement heq) Entries.distinct_nil hall h

end Document

theorem keysDistinct_inlineTable {pairs : List (Key × Json)} {j : Json}
    (hall : ∀ pair ∈ pairs, pair.2.KeysDistinct) (h : inlineTable pairs = some j) :
    j.KeysDistinct := by
  obtain ⟨entries, hentries, rfl⟩ := Option.map_eq_some_iff.mp h
  refine Entries.keysDistinct_iff.mpr (of_foldlM ?_ Entries.distinct_nil hall hentries)
  intro entries pair entries' h hpair heq
  exact Entries.distinct_assign hpair h heq

/-! ## What is read -/

section Read

variable {value : List Char → Option (Json × List Char)} {cs rest : List Char} {j : Json}

/-- All values that the reader gives are without repeated keys. -/
def ReadsDistinct (value : List Char → Option (Json × List Char)) : Prop :=
  ∀ {cs j rest}, value cs = some (j, rest) → j.KeysDistinct

theorem forall_of_readItems (hvalue : ReadsDistinct value) {fuel : Nat} {items : List Json}
    (h : readItems value fuel cs = some (items, rest)) : ∀ item ∈ items, item.KeysDistinct := by
  induction fuel generalizing cs items rest with
  | zero => simp [readItems] at h
  | succ fuel ih =>
    rw [readItems] at h
    obtain ⟨start, -, h⟩ := Option.bind_eq_some_iff.mp h
    split at h
    · obtain ⟨rfl, -⟩ := Prod.mk.inj (Option.some.inj h)
      simp
    · obtain ⟨⟨item, rest₁⟩, hitem, h⟩ := Option.bind_eq_some_iff.mp h
      obtain ⟨behind, -, h⟩ := Option.bind_eq_some_iff.mp h
      split at h
      · obtain ⟨⟨more, rest₂⟩, hmore, h⟩ := Option.bind_eq_some_iff.mp h
        obtain ⟨rfl, -⟩ := Prod.mk.inj (Option.some.inj h)
        exact List.forall_mem_cons.mpr ⟨hvalue hitem, ih hmore⟩
      · obtain ⟨rfl, -⟩ := Prod.mk.inj (Option.some.inj h)
        exact List.forall_mem_singleton.mpr (hvalue hitem)
      · simp at h

theorem keysDistinct_of_readPair (hvalue : ReadsDistinct value) {pair : Key × Json}
    (h : readPair value cs = some (pair, rest)) : pair.2.KeysDistinct := by
  rw [readPair] at h
  obtain ⟨⟨key, rest₁⟩, -, h⟩ := Option.bind_eq_some_iff.mp h
  dsimp only at h
  split at h
  · obtain ⟨⟨j, rest₂⟩, hj, h⟩ := Option.bind_eq_some_iff.mp h
    obtain ⟨rfl, -⟩ := Prod.mk.inj (Option.some.inj h)
    exact hvalue hj
  · simp at h

theorem forall_of_readPairs (hvalue : ReadsDistinct value) {fuel : Nat} {pairs : List (Key × Json)}
    (h : readPairs value fuel cs = some (pairs, rest)) :
    ∀ pair ∈ pairs, pair.2.KeysDistinct := by
  induction fuel generalizing cs pairs rest with
  | zero => simp [readPairs] at h
  | succ fuel ih =>
    rw [readPairs] at h
    obtain ⟨⟨pair, rest₁⟩, hpair, h⟩ := Option.bind_eq_some_iff.mp h
    have hpair := keysDistinct_of_readPair hvalue hpair
    dsimp only at h
    split at h
    · obtain ⟨⟨more, rest₂⟩, hmore, h⟩ := Option.bind_eq_some_iff.mp h
      obtain ⟨rfl, -⟩ := Prod.mk.inj (Option.some.inj h)
      exact List.forall_mem_cons.mpr ⟨hpair, ih hmore⟩
    · obtain ⟨rfl, -⟩ := Prod.mk.inj (Option.some.inj h)
      exact List.forall_mem_singleton.mpr hpair
    · simp at h

theorem readsDistinct_readInline (hvalue : ReadsDistinct value) :
    ReadsDistinct (readInline value) := by
  intro cs j rest h
  rw [readInline] at h
  split at h
  · obtain ⟨table, htable, h⟩ := Option.map_eq_some_iff.mp h
    obtain ⟨rfl, -⟩ := Prod.mk.inj h
    exact keysDistinct_inlineTable (by simp) htable
  · obtain ⟨⟨pairs, rest₁⟩, hpairs, h⟩ := Option.bind_eq_some_iff.mp h
    obtain ⟨table, htable, h⟩ := Option.bind_eq_some_iff.mp h
    obtain ⟨rfl, -⟩ := Prod.mk.inj (Option.some.inj h)
    exact keysDistinct_inlineTable (forall_of_readPairs hvalue hpairs) htable

/-! ### Scalars -/

theorem keysDistinct_of_integerOf? {negative : Bool} {whole : List Char}
    (h : integerOf? negative whole = some j) : j.KeysDistinct := by
  rw [integerOf?] at h
  split at h <;> split at h
  · obtain rfl := Option.some.inj h
    exact .number _
  · simp at h
  · obtain rfl := Option.some.inj h
    exact .number _
  · simp at h

theorem keysDistinct_of_floatOf? {negative : Bool} {whole fraction : List Char} {exponent : Int}
    (h : floatOf? negative whole fraction exponent = some j) : j.KeysDistinct := by
  rw [floatOf?] at h
  split at h
  · obtain rfl := Option.some.inj h
    exact .number _
  · split at h
    · obtain rfl := Option.some.inj h
      exact .null
    · simp at h

theorem readsDistinct_readInBase (base : Nat) : ReadsDistinct (readInBase base) := by
  intro cs j rest h
  rw [readInBase] at h
  obtain ⟨⟨ds, rest₁⟩, -, h⟩ := Option.bind_eq_some_iff.mp h
  dsimp only at h
  split at h
  · obtain ⟨rfl, -⟩ := Prod.mk.inj (Option.some.inj h)
    exact .number _
  · simp at h

theorem readsDistinct_readDecimal (negative : Bool) : ReadsDistinct (readDecimal negative) := by
  intro cs j rest h
  rw [readDecimal] at h
  obtain ⟨⟨whole, rest₁⟩, -, h⟩ := Option.bind_eq_some_iff.mp h
  obtain ⟨⟨fraction, rest₂⟩, -, h⟩ := Option.bind_eq_some_iff.mp h
  obtain ⟨⟨exponent, rest₃⟩, -, h⟩ := Option.bind_eq_some_iff.mp h
  dsimp only at h
  split at h
  · obtain ⟨number, hnumber, h⟩ := Option.bind_eq_some_iff.mp h
    obtain ⟨rfl, -⟩ := Prod.mk.inj (Option.some.inj h)
    exact keysDistinct_of_integerOf? hnumber
  · obtain ⟨number, hnumber, h⟩ := Option.bind_eq_some_iff.mp h
    obtain ⟨rfl, -⟩ := Prod.mk.inj (Option.some.inj h)
    exact keysDistinct_of_floatOf? hnumber

theorem readsDistinct_readUnsigned (negative : Bool) : ReadsDistinct (readUnsigned negative) := by
  intro cs j rest h
  unfold readUnsigned at h
  split at h
  · obtain ⟨rfl, -⟩ := Prod.mk.inj (Option.some.inj h)
    exact .null
  · obtain ⟨rfl, -⟩ := Prod.mk.inj (Option.some.inj h)
    exact .null
  · exact readsDistinct_readDecimal negative h

theorem readsDistinct_readNumber : ReadsDistinct readNumber := by
  intro cs j rest h
  unfold readNumber at h
  split at h
  · exact readsDistinct_readInBase 16 h
  · exact readsDistinct_readInBase 8 h
  · exact readsDistinct_readInBase 2 h
  · exact readsDistinct_readUnsigned false h
  · exact readsDistinct_readUnsigned true h
  · exact readsDistinct_readUnsigned false h

theorem readsDistinct_readName (name : String) (hj : j.KeysDistinct) :
    ReadsDistinct (readName name j) := by
  intro cs j' rest h
  rw [readName] at h
  split at h
  · obtain ⟨rfl, -⟩ := Prod.mk.inj (Option.some.inj h)
    exact hj
  · simp at h

theorem keysDistinct_momentJson (d : DateTime) : (momentJson d).KeysDistinct :=
  .object (List.nodup_singleton _) (List.forall_mem_singleton.mpr (.string _))

theorem readsDistinct_readScalarValue : ReadsDistinct readScalarValue := by
  intro cs j rest h
  unfold readScalarValue at h
  split at h
  · obtain ⟨⟨s, rest₁⟩, -, h⟩ := Option.map_eq_some_iff.mp h
    obtain ⟨rfl, -⟩ := Prod.mk.inj h
    exact .string s
  · obtain ⟨⟨s, rest₁⟩, -, h⟩ := Option.map_eq_some_iff.mp h
    obtain ⟨rfl, -⟩ := Prod.mk.inj h
    exact .string s
  · exact readsDistinct_readName "true" (.bool true) h
  · exact readsDistinct_readName "false" (.bool false) h
  · split at h
    · obtain ⟨⟨d, rest₁⟩, -, h⟩ := Option.map_eq_some_iff.mp h
      obtain ⟨rfl, -⟩ := Prod.mk.inj h
      exact keysDistinct_momentJson d
    · exact readsDistinct_readNumber h

/-! ### Values and documents -/

theorem readsDistinct_readValue (levels : Nat) : ReadsDistinct (readValue levels) := by
  induction levels with
  | zero =>
    intro cs j rest h
    rw [readValue.eq_def] at h
    split at h
    · simp at h
    · simp at h
    · rename_i hlevels
      exact absurd hlevels.symm (Nat.succ_ne_zero _)
    · rename_i hlevels
      exact absurd hlevels.symm (Nat.succ_ne_zero _)
    · exact readsDistinct_readScalarValue h
  | succ levels ih =>
    intro cs j rest h
    rw [readValue.eq_def] at h
    split at h
    · simp at h
    · simp at h
    · rename_i hlevels
      obtain rfl := Nat.succ.inj hlevels
      obtain ⟨⟨items, rest₁⟩, hitems, h⟩ := Option.map_eq_some_iff.mp h
      obtain ⟨rfl, -⟩ := Prod.mk.inj h
      exact .array (forall_of_readItems ih hitems)
    · rename_i hlevels
      obtain rfl := Nat.succ.inj hlevels
      exact readsDistinct_readInline ih h
    · exact readsDistinct_readScalarValue h

theorem distinct_of_readHeader {statement : Statement}
    (h : readHeader cs = some (statement, rest)) : statement.Distinct := by
  unfold readHeader at h
  split at h
  · obtain ⟨⟨key, rest₁⟩, -, h⟩ := Option.bind_eq_some_iff.mp h
    dsimp only at h
    split at h
    · obtain ⟨rfl, -⟩ := Prod.mk.inj (Option.some.inj h)
      trivial
    · simp at h
  · obtain ⟨⟨key, rest₁⟩, -, h⟩ := Option.bind_eq_some_iff.mp h
    dsimp only at h
    split at h
    · obtain ⟨rfl, -⟩ := Prod.mk.inj (Option.some.inj h)
      trivial
    · simp at h
  · simp at h

theorem distinct_of_readStatement {statement : Statement}
    (h : readStatement cs = some (statement, rest)) : statement.Distinct := by
  unfold readStatement at h
  split at h
  · exact distinct_of_readHeader h
  · obtain ⟨⟨pair, rest₁⟩, hpair, h⟩ := Option.map_eq_some_iff.mp h
    obtain ⟨rfl, -⟩ := Prod.mk.inj h
    exact keysDistinct_of_readPair (readsDistinct_readValue _) hpair

theorem distinct_of_readStatements {fuel : Nat} {statements : List Statement}
    (h : readStatements fuel cs = some statements) :
    ∀ statement ∈ statements, statement.Distinct := by
  induction fuel generalizing cs statements with
  | zero => simp [readStatements] at h
  | succ fuel ih =>
    rw [readStatements] at h
    split at h
    · obtain rfl := Option.some.inj h
      simp
    · split at h
      · exact ih h
      · obtain ⟨⟨statement, rest₁⟩, hstatement, h⟩ := Option.bind_eq_some_iff.mp h
        obtain ⟨behind, -, h⟩ := Option.bind_eq_some_iff.mp h
        obtain ⟨more, hmore, h⟩ := Option.bind_eq_some_iff.mp h
        obtain rfl := Option.some.inj h
        exact List.forall_mem_cons.mpr ⟨distinct_of_readStatement hstatement, ih hmore⟩

theorem keysDistinct_of_parse? {text : String} (h : parse? text = some j) : j.KeysDistinct := by
  rw [parse?] at h
  obtain ⟨statements, hstatements, h⟩ := Option.bind_eq_some_iff.mp h
  obtain ⟨document, hdocument, h⟩ := Option.bind_eq_some_iff.mp h
  obtain rfl := Option.some.inj h
  refine Entries.keysDistinct_iff.mpr (Document.distinct_ofStatements ?_ hdocument)
  exact distinct_of_readStatements hstatements

end Read

end FolderFlow.Toml

namespace FolderFlow

/-- **What is read has no repeated keys.** A text of either format is refused, or it is read as a
value in which no object holds a key twice. -/
theorem ConfigFormat.keysDistinct_of_parse? {format : ConfigFormat} {text : String} {raw : Json}
    (h : format.parse? text = some raw) : raw.KeysDistinct := by
  cases format with
  | json => exact Json.keysDistinct_of_parse? h
  | toml => exact Toml.keysDistinct_of_parse? h

end FolderFlow
