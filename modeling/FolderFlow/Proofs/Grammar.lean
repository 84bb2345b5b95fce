import FolderFlow.Config.Validate
import FolderFlow.Proofs.FolderOrder
import Mathlib.Data.List.Forall2

/-!
# The grammar of configurations

`Json.IsConfig` says which JSON values are configurations. It knows nothing of how one is read:
every clause speaks of the value alone. `Config.Describes` says which configuration such a value
describes. What may be left out may also be `null`; a lone lint-file pattern stands for a list of
one; an empty list of imported names, and an override that is `null`, stand for nothing.

For each part there is a lemma that every value of its grammar describes something, and no other
does.
-/

namespace FolderFlow

namespace Json

/-! ## Parts -/

def IsString (j : Json) : Prop :=
  ∃ s, j = .string s

def IsBool (j : Json) : Prop :=
  ∃ b, j = .bool b

/-- A string that is not blank. -/
def IsName (j : Json) : Prop :=
  ∃ s, j = .string s ∧ ¬ Text.IsBlank s

def IsArrayOf (p : Json → Prop) (j : Json) : Prop :=
  ∃ items, j = .array items ∧ ∀ item ∈ items, p item

def IsNonemptyArrayOf (p : Json → Prop) (j : Json) : Prop :=
  j ≠ .array [] ∧ IsArrayOf p j

/-- The part is there and satisfies `p`. -/
def IsRequired (p : Json → Prop) (part : Option Json) : Prop :=
  ∃ j, part = some j ∧ p j

/-- The part is missing, or `null`, or it satisfies `p`. -/
def IsOptional (p : Json → Prop) (part : Option Json) : Prop :=
  ∀ j, part = some j → j = .null ∨ p j

/-! ## The flow -/

def IsEdgeOptions (j : Json) : Prop :=
  ∃ members, j = .object members ∧
    IsOptional IsBool (Members.find? members "selfOnly") ∧
    IsOptional IsString (Members.find? members "label") ∧
    IsOptional IsString (Members.find? members "description")

/-- An array of at least two items; what stands behind the third is not looked at. -/
def IsEdge (j : Json) : Prop :=
  ∃ tuple, j = .array tuple ∧ IsRequired IsName tuple[0]? ∧ IsRequired IsName tuple[1]? ∧
    IsOptional IsEdgeOptions tuple[2]?

/-- The member `dependencyFlow`, or `dependencyFlowchart` where that is missing or `null`. -/
def IsFlowOf (raw : Members) (flow : Json) : Prop :=
  flow ≠ .null ∧ (Members.find? raw "dependencyFlow" = some flow ∨
    (∀ j, Members.find? raw "dependencyFlow" = some j → j = .null) ∧
      Members.find? raw "dependencyFlowchart" = some flow)

/-- The folder is at one end of an edge. -/
def NamesFolder (flow : Json) (folder : String) : Prop :=
  ∃ items tuple, flow = .array items ∧ .array tuple ∈ items ∧
    (tuple[0]? = some (.string folder) ∨ tuple[1]? = some (.string folder))

/-! ## The other sections -/

def IsDocs (j : Json) : Prop :=
  IsRequired IsName (j.get? "file") ∧ IsRequired IsName (j.get? "markerTag") ∧
    IsOptional IsString (j.get? "content")

/-- A set of rules, or `null`. -/
def IsOverride (j : Json) : Prop :=
  j = .null ∨ ∃ rules, j = .object rules

/-- Overrides for folders that are known. -/
def IsOverrides (known : String → Prop) (j : Json) : Prop :=
  ∃ entries, j = .object entries ∧ ∀ entry ∈ entries, known entry.1 ∧ IsOverride entry.2

def IsFolder (known : String → Prop) (j : Json) : Prop :=
  ∃ folder, j = .string folder ∧ known folder

def IsPackageRule (known : String → Prop) (j : Json) : Prop :=
  IsRequired IsName (j.get? "name") ∧
    IsOptional (IsArrayOf IsName) (j.get? "importNames") ∧
    IsRequired (IsNonemptyArrayOf (IsFolder known)) (j.get? "allowedInFolders")

/-- A string that holds the placeholder, and so is not blank. -/
def IsPattern (j : Json) : Prop :=
  ∃ s, j = .string s ∧ ¬ Text.IsBlank s ∧ "\x7bfolder\x7d".toList <:+: s.toList

def IsLintFiles (j : Json) : Prop :=
  IsPattern j ∨ IsNonemptyArrayOf IsPattern j

def IsLayout (j : Json) : Prop :=
  j = .string "folder" ∨ j = .string "flat"

/-! ## The whole -/

structure IsConfigObject (raw : Members) : Prop where
  appAlias : IsRequired IsName (Members.find? raw "appAlias")
  flow : ∃ flow, IsFlowOf raw flow ∧ IsArrayOf IsEdge flow ∧
    IsOptional (IsOverrides (NamesFolder flow)) (Members.find? raw "overrideRules") ∧
    IsOptional (IsArrayOf (IsPackageRule (NamesFolder flow)))
      (Members.find? raw "packageImportRules")
  docs : IsOptional IsDocs (Members.find? raw "docs")
  lintFiles : IsRequired IsLintFiles (Members.find? raw "lintFiles")
  moduleLayout : IsOptional IsLayout (Members.find? raw "moduleLayout")

/-- The value is a configuration. -/
def IsConfig (raw : Json) : Prop :=
  ∃ members, raw = .object members ∧ IsConfigObject members

end Json

namespace Config

open Json

variable {α β : Type}

/-! ## What the parts describe -/

/-- The value is this string, which is not blank. -/
def DescribesName (j : Json) (s : String) : Prop :=
  j = .string s ∧ ¬ Text.IsBlank s

/-- A part that is missing or `null` describes nothing. -/
inductive DescribesOptional (R : Json → α → Prop) : Option Json → Option α → Prop where
  | missing : DescribesOptional R none none
  | null : DescribesOptional R (some .null) none
  | there {j : Json} {a : α} : j ≠ .null → R j a → DescribesOptional R (some j) (some a)

def DescribesList (R : Json → α → Prop) (j : Json) (as : List α) : Prop :=
  ∃ items, j = .array items ∧ List.Forall₂ R items as

def DescribesNonempty (R : Json → α → Prop) (j : Json) (as : List α) : Prop :=
  as ≠ [] ∧ DescribesList R j as

/-- A part with a value of its own where it is missing. -/
def DescribesOr (absent : α) (R : Json → α → Prop) (part : Option Json) (a : α) : Prop :=
  ∃ found, DescribesOptional R part found ∧ a = found.getD absent

def DescribesRequired (R : Json → α → Prop) (part : Option Json) (a : α) : Prop :=
  ∃ j, part = some j ∧ R j a

def DescribesText (j : Json) (s : String) : Prop :=
  j = .string s

def DescribesBool (j : Json) (b : Bool) : Prop :=
  j = .bool b

def DescribesEdgeOptions (j : Json) (o : EdgeOptions) : Prop :=
  ∃ members, j = .object members ∧
    DescribesOr false DescribesBool (Members.find? members "selfOnly") o.selfOnly ∧
    DescribesOptional DescribesText (Members.find? members "label") o.label ∧
    DescribesOptional DescribesText (Members.find? members "description") o.description

def DescribesEdge (j : Json) (e : Edge) : Prop :=
  ∃ first second more, j = .array (first :: second :: more) ∧
    DescribesName first e.source ∧ DescribesName second e.target ∧
    DescribesOr {} DescribesEdgeOptions more.head? e.options

def DescribesDocs (j : Json) (d : DocsOptions) : Prop :=
  DescribesRequired DescribesName (j.get? "file") d.file ∧
    DescribesRequired DescribesName (j.get? "markerTag") d.markerTag ∧
    DescribesOptional DescribesText (j.get? "content") d.content

/-- Key by key, in the order of the keys, without repeats. -/
def SortedByKey (rules : List (String × Members)) : Prop :=
  rules.Pairwise fun a b => Text.atMost a.1 b.1 = true ∧ a.1 ≠ b.1

/-- The last object under a key. In an object without repeated keys it is the only one. -/
def LastObject (entries : Members) (key : String) (rules : Members) : Prop :=
  ∃ before after, entries = before ++ (key, .object rules) :: after ∧
    ∀ other, (key, .object other) ∉ after

def DescribesOverrides (known : String → Prop) (j : Json) (o : List (String × Members)) : Prop :=
  ∃ entries, j = .object entries ∧
    (∀ entry ∈ entries, known entry.1 ∧ IsOverride entry.2) ∧
    SortedByKey o ∧ ∀ key rules, (key, rules) ∈ o ↔ LastObject entries key rules

def DescribesFolder (known : String → Prop) (j : Json) (folder : String) : Prop :=
  j = .string folder ∧ known folder

/-- An empty list of imported names is none. -/
def DescribesImportNames (part : Option Json) (names : Option (List String)) : Prop :=
  ∃ found, DescribesOptional (DescribesList DescribesName) part found ∧
    names = found.filter fun listed => !listed.isEmpty

def DescribesPackageRule (known : String → Prop) (j : Json) (r : PackageRule) : Prop :=
  DescribesRequired DescribesName (j.get? "name") r.name ∧
    DescribesImportNames (j.get? "importNames") r.importNames ∧
    DescribesRequired (DescribesNonempty (DescribesFolder known)) (j.get? "allowedInFolders")
      r.allowedInFolders

def DescribesPattern (j : Json) (s : String) : Prop :=
  DescribesName j s ∧ "\x7bfolder\x7d".toList <:+: s.toList

/-- A pattern without a list around it is a list of one. -/
def DescribesLintFiles (j : Json) (patterns : List String) : Prop :=
  (∃ s, DescribesPattern j s ∧ patterns = [s]) ∨
    DescribesNonempty DescribesPattern j patterns

def DescribesLayout (j : Json) (layout : ModuleLayout) : Prop :=
  j = .string layout.name

/-- The members of an object describe a configuration. -/
structure Describes (raw : Members) (c : Config) : Prop where
  appAlias : DescribesRequired DescribesName (Members.find? raw "appAlias") c.appAlias
  flow : ∃ flow, IsFlowOf raw flow ∧ DescribesList DescribesEdge flow c.flow.edges
  docs : DescribesOptional DescribesDocs (Members.find? raw "docs") c.docs
  overrides : DescribesOr [] (DescribesOverrides (· ∈ c.folders))
    (Members.find? raw "overrideRules") c.overrides
  packageRules : DescribesOr [] (DescribesList (DescribesPackageRule (· ∈ c.folders)))
    (Members.find? raw "packageImportRules") c.packageRules
  lintFiles : DescribesRequired DescribesLintFiles (Members.find? raw "lintFiles") c.lintFiles
  moduleLayout : DescribesOr .folder DescribesLayout (Members.find? raw "moduleLayout")
    c.moduleLayout

/-- What a part describes is either what it stands for when missing or described by a value. -/
theorem eq_or_exists_of_describesOr {R : Json → α → Prop} {absent a : α} {part : Option Json}
    (h : DescribesOr absent R part a) : a = absent ∨ ∃ j, R j a := by
  obtain ⟨found, hfound, rfl⟩ := h
  cases hfound with
  | missing => exact Or.inl rfl
  | null => exact Or.inl rfl
  | there _ ha => exact Or.inr ⟨_, ha⟩

/-! ## Every configuration describes something -/

section Exists

variable {R : Json → α → Prop} {p : Json → Prop} {j : Json} {part : Option Json}

theorem exists_describesName_iff : (∃ s, DescribesName j s) ↔ IsName j :=
  Iff.rfl

theorem exists_describesText_iff : (∃ s, DescribesText j s) ↔ IsString j :=
  Iff.rfl

theorem exists_describesBool_iff : (∃ b, DescribesBool j b) ↔ IsBool j :=
  Iff.rfl

theorem exists_describesRequired_iff (h : ∀ j, (∃ a, R j a) ↔ p j) :
    (∃ a, DescribesRequired R part a) ↔ IsRequired p part := by
  constructor
  · rintro ⟨a, j, hpart, ha⟩
    exact ⟨j, hpart, (h j).mp ⟨a, ha⟩⟩
  · rintro ⟨j, hpart, hj⟩
    obtain ⟨a, ha⟩ := (h j).mpr hj
    exact ⟨a, j, hpart, ha⟩

theorem exists_describesOptional_iff (h : ∀ j, (∃ a, R j a) ↔ p j) :
    (∃ found, DescribesOptional R part found) ↔ IsOptional p part := by
  constructor
  · rintro ⟨found, hfound⟩ j hpart
    cases hfound with
    | missing => exact absurd hpart (by simp)
    | null => exact Or.inl (Option.some.inj hpart).symm
    | there hnull ha =>
      obtain rfl := Option.some.inj hpart
      exact Or.inr ((h _).mp ⟨_, ha⟩)
  · intro hpart
    cases part with
    | none => exact ⟨none, .missing⟩
    | some j =>
      by_cases hnull : j = .null
      · subst hnull
        exact ⟨none, .null⟩
      · obtain ⟨a, ha⟩ := (h j).mpr ((hpart j rfl).resolve_left hnull)
        exact ⟨some a, .there hnull ha⟩

theorem exists_describesOr_iff {absent : α} (h : ∀ j, (∃ a, R j a) ↔ p j) :
    (∃ a, DescribesOr absent R part a) ↔ IsOptional p part := by
  rw [← exists_describesOptional_iff h]
  constructor
  · rintro ⟨_, found, hfound, -⟩
    exact ⟨found, hfound⟩
  · rintro ⟨found, hfound⟩
    exact ⟨_, found, hfound, rfl⟩

theorem exists_describesList_iff (h : ∀ j, (∃ a, R j a) ↔ p j) :
    (∃ as, DescribesList R j as) ↔ IsArrayOf p j := by
  have hitems : ∀ items, (∃ as, List.Forall₂ R items as) ↔ ∀ item ∈ items, p item := by
    intro items
    induction items with
    | nil => simp
    | cons item items ih =>
      rw [List.forall_mem_cons, ← h, ← ih]
      constructor
      · rintro ⟨as, has⟩
        obtain ⟨a, more, ha, hmore, -⟩ := List.forall₂_cons_left_iff.mp has
        exact ⟨⟨a, ha⟩, more, hmore⟩
      · rintro ⟨⟨a, ha⟩, as, has⟩
        exact ⟨a :: as, .cons ha has⟩
  constructor
  · rintro ⟨as, items, rfl, has⟩
    exact ⟨items, rfl, (hitems items).mp ⟨as, has⟩⟩
  · rintro ⟨items, rfl, hall⟩
    obtain ⟨as, has⟩ := (hitems items).mpr hall
    exact ⟨as, items, rfl, has⟩

theorem exists_describesEdgeOptions_iff : (∃ o, DescribesEdgeOptions j o) ↔ IsEdgeOptions j := by
  have hflag (part : Option Json) :
      (∃ b, DescribesOr false DescribesBool part b) ↔ IsOptional IsBool part :=
    exists_describesOr_iff fun _ => exists_describesBool_iff
  unfold IsEdgeOptions
  simp only [← exists_describesOptional_iff fun _ => exists_describesText_iff, ← hflag]
  constructor
  · rintro ⟨o, members, rfl, hself, hlabel, hdescription⟩
    exact ⟨members, rfl, ⟨_, hself⟩, ⟨_, hlabel⟩, ⟨_, hdescription⟩⟩
  · rintro ⟨members, rfl, ⟨selfOnly, hself⟩, ⟨label, hlabel⟩, ⟨description, hdescription⟩⟩
    exact ⟨⟨label, description, selfOnly⟩, members, rfl, hself, hlabel, hdescription⟩

theorem exists_describesEdge_iff : (∃ e, DescribesEdge j e) ↔ IsEdge j := by
  have hoptions (part : Option Json) :
      (∃ o, DescribesOr {} DescribesEdgeOptions part o) ↔ IsOptional IsEdgeOptions part :=
    exists_describesOr_iff fun _ => exists_describesEdgeOptions_iff
  unfold IsEdge
  simp only [← exists_describesRequired_iff fun _ => exists_describesName_iff, ← hoptions]
  constructor
  · rintro ⟨e, first, second, more, rfl, hsource, htarget, hoptions⟩
    refine ⟨first :: second :: more, rfl, ⟨_, first, rfl, hsource⟩, ⟨_, second, rfl, htarget⟩, ?_⟩
    rw [List.getElem?_cons_succ, List.getElem?_cons_succ, ← List.head?_eq_getElem?]
    exact ⟨_, hoptions⟩
  · rintro ⟨tuple, rfl, ⟨source, first, hfirst, hsource⟩, ⟨target, second, hsecond, htarget⟩,
      options, hoptions⟩
    match tuple, hfirst, hsecond, hoptions with
    | first' :: second' :: more, hfirst, hsecond, hoptions =>
      obtain rfl := Option.some.inj hfirst
      obtain rfl := Option.some.inj hsecond
      rw [List.getElem?_cons_succ, List.getElem?_cons_succ, ← List.head?_eq_getElem?] at hoptions
      exact ⟨⟨source, target, options⟩, _, _, more, rfl, hsource, htarget, hoptions⟩

theorem exists_describesDocs_iff : (∃ d, DescribesDocs j d) ↔ IsDocs j := by
  unfold IsDocs
  simp only [← exists_describesRequired_iff fun _ => exists_describesName_iff,
    ← exists_describesOptional_iff fun _ => exists_describesText_iff]
  constructor
  · rintro ⟨d, hfile, htag, hcontent⟩
    exact ⟨⟨_, hfile⟩, ⟨_, htag⟩, ⟨_, hcontent⟩⟩
  · rintro ⟨⟨file, hfile⟩, ⟨tag, htag⟩, ⟨content, hcontent⟩⟩
    exact ⟨⟨file, tag, content⟩, hfile, htag, hcontent⟩

theorem exists_describesNonempty_iff (h : ∀ j, (∃ a, R j a) ↔ p j) :
    (∃ as, DescribesNonempty R j as) ↔ IsNonemptyArrayOf p j := by
  unfold IsNonemptyArrayOf
  rw [← exists_describesList_iff h]
  constructor
  · rintro ⟨as, hne, items, rfl, has⟩
    refine ⟨fun hnil => hne ?_, as, items, rfl, has⟩
    obtain rfl := Json.array.inj hnil
    exact List.forall₂_nil_left_iff.mp has
  · rintro ⟨hne, as, items, rfl, has⟩
    refine ⟨as, fun hnil => hne ?_, items, rfl, has⟩
    subst hnil
    rw [List.forall₂_nil_right_iff.mp has]

theorem exists_describesFolder_iff {known : String → Prop} :
    (∃ folder, DescribesFolder known j folder) ↔ IsFolder known j :=
  Iff.rfl

theorem exists_describesImportNames_iff :
    (∃ names, DescribesImportNames part names) ↔ IsOptional (IsArrayOf IsName) part := by
  rw [← exists_describesOptional_iff fun _ =>
    exists_describesList_iff fun _ => exists_describesName_iff]
  constructor
  · rintro ⟨_, found, hfound, -⟩
    exact ⟨found, hfound⟩
  · rintro ⟨found, hfound⟩
    exact ⟨_, found, hfound, rfl⟩

theorem exists_describesPackageRule_iff {known : String → Prop} :
    (∃ r, DescribesPackageRule known j r) ↔ IsPackageRule known j := by
  unfold IsPackageRule
  simp only [← exists_describesRequired_iff fun _ => exists_describesName_iff,
    ← exists_describesImportNames_iff]
  rw [← exists_describesRequired_iff fun _ =>
    exists_describesNonempty_iff fun _ => exists_describesFolder_iff]
  constructor
  · rintro ⟨r, hname, hnames, hallowed⟩
    exact ⟨⟨_, hname⟩, ⟨_, hnames⟩, ⟨_, hallowed⟩⟩
  · rintro ⟨⟨name, hname⟩, ⟨names, hnames⟩, ⟨allowed, hallowed⟩⟩
    exact ⟨⟨name, names, allowed⟩, hname, hnames, hallowed⟩

theorem exists_describesPattern_iff : (∃ s, DescribesPattern j s) ↔ IsPattern j :=
  exists_congr fun _ => and_assoc

theorem exists_describesLintFiles_iff : (∃ ss, DescribesLintFiles j ss) ↔ IsLintFiles j := by
  unfold IsLintFiles DescribesLintFiles
  rw [exists_or, exists_describesNonempty_iff fun _ => exists_describesPattern_iff,
    ← exists_describesPattern_iff]
  refine or_congr_left ⟨?_, ?_⟩
  · rintro ⟨ss, s, hs, rfl⟩
    exact ⟨s, hs⟩
  · rintro ⟨s, hs⟩
    exact ⟨[s], s, hs, rfl⟩

theorem exists_describesLayout_iff : (∃ layout, DescribesLayout j layout) ↔ IsLayout j := by
  constructor
  · rintro ⟨layout, rfl⟩
    cases layout with
    | folder => exact Or.inl rfl
    | flat => exact Or.inr rfl
  · rintro (rfl | rfl)
    · exact ⟨.folder, rfl⟩
    · exact ⟨.flat, rfl⟩

end Exists

/-! ## Folders -/

theorem namesFolder_cons_iff {item : Json} {items : List Json} {folder : String} :
    NamesFolder (.array (item :: items)) folder ↔
      (∃ tuple, item = .array tuple ∧
        (tuple[0]? = some (.string folder) ∨ tuple[1]? = some (.string folder))) ∨
      NamesFolder (.array items) folder := by
  constructor
  · rintro ⟨all, tuple, hall, hmem, hends⟩
    obtain rfl := Json.array.inj hall
    rcases List.mem_cons.mp hmem with rfl | hmem
    · exact Or.inl ⟨tuple, rfl, hends⟩
    · exact Or.inr ⟨items, tuple, rfl, hmem, hends⟩
  · rintro (⟨tuple, rfl, hends⟩ | ⟨rest, tuple, hrest, hmem, hends⟩)
    · exact ⟨_, tuple, rfl, List.mem_cons_self, hends⟩
    · obtain rfl := Json.array.inj hrest
      exact ⟨_, tuple, rfl, List.mem_cons_of_mem item hmem, hends⟩

theorem ends_of_describesEdge {j : Json} {e : Edge} (h : DescribesEdge j e) (folder : String) :
    (∃ tuple, j = .array tuple ∧
      (tuple[0]? = some (.string folder) ∨ tuple[1]? = some (.string folder))) ↔
      folder = e.source ∨ folder = e.target := by
  obtain ⟨first, second, more, rfl, ⟨rfl, -⟩, ⟨rfl, -⟩, -⟩ := h
  simp [eq_comm]

/-- The folders that a flow names are those of the edges that it describes. -/
theorem namesFolder_iff {items : List Json} {edges : List Edge}
    (h : List.Forall₂ DescribesEdge items edges) (folder : String) :
    NamesFolder (.array items) folder ↔ folder ∈ (Flow.mk edges).folders := by
  rw [Flow.mem_folders]
  induction h with
  | nil => simp [NamesFolder, Flow.endpoints]
  | cons he _ ih =>
    rw [namesFolder_cons_iff, ends_of_describesEdge he, ih]
    simp [Flow.endpoints, or_assoc]

end Config

end FolderFlow
