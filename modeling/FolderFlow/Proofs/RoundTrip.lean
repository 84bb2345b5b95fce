import FolderFlow.Proofs.Validate

/-!
# Writing a configuration and reading it again

`validate_toJson`: a configuration that was read is written as a value that is read as the same
configuration. What carries this is `WritesBack`: whatever a value describes is described again by
the value that is written for it. It is passed on from the items to their list and from the parts to
the whole; the readers enter only at the end, through what they accept.
-/

namespace FolderFlow

/-- Whatever stands on the left is related to something on the right. -/
theorem exists_of_forall₂ {α β : Type} {R : α → β → Prop} {as : List α} {bs : List β}
    (h : List.Forall₂ R as bs) {a : α} (ha : a ∈ as) : ∃ b ∈ bs, R a b := by
  induction h with
  | nil => exact absurd ha List.not_mem_nil
  | cons hfirst _ ih =>
    rcases List.mem_cons.mp ha with rfl | ha
    · exact ⟨_, List.mem_cons_self, hfirst⟩
    · obtain ⟨b, hb, hab⟩ := ih ha
      exact ⟨b, List.mem_cons_of_mem _ hb, hab⟩

namespace Json

variable {fields : List (String × Option Json)} {key k : String} {value : Option Json}

/-! ## Objects that are written -/

@[simp] theorem get?_object (members : Members) (key : String) :
    (object members).get? key = Members.find? members key :=
  rfl

theorem get?_ofMembers_cons_of_ne (h : key ≠ k) :
    (ofMembers ((k, value) :: fields)).get? key = (ofMembers fields).get? key := by
  cases value with
  | none => rfl
  | some j => simp [ofMembers, get?, Members.find?, List.lookup_cons, beq_eq_false_iff_ne.mpr h]

theorem get?_ofMembers_of_notMem (h : key ∉ fields.map Prod.fst) :
    (ofMembers fields).get? key = none := by
  induction fields with
  | nil => rfl
  | cons field fields ih =>
    rw [get?_ofMembers_cons_of_ne (List.ne_of_not_mem_cons h),
      ih (List.not_mem_of_not_mem_cons h)]

/-- Where no key repeats, each part is found under the key under which it is written. -/
theorem get?_ofMembers (hkeys : (fields.map Prod.fst).Nodup) (hmem : (key, value) ∈ fields) :
    (ofMembers fields).get? key = value := by
  induction fields with
  | nil => exact absurd hmem List.not_mem_nil
  | cons field fields ih =>
    obtain ⟨hhead, hkeys⟩ := List.nodup_cons.mp hkeys
    rcases List.mem_cons.mp hmem with rfl | hmem
    · cases value with
      | none => exact (get?_ofMembers_of_notMem hhead : (ofMembers fields).get? key = none)
      | some j => simp [ofMembers, get?, Members.find?]
    · have hne : key ≠ field.1 := fun heq =>
        hhead (heq ▸ List.mem_map_of_mem hmem)
      rw [get?_ofMembers_cons_of_ne hne, ih hkeys hmem]

end Json

theorem EdgeOptions.isEmpty_iff {o : EdgeOptions} : o.isEmpty = true ↔ o = {} := by
  obtain ⟨label, description, selfOnly⟩ := o
  simp [isEmpty, and_assoc]

theorem EdgeOptions.get?_toJson (o : EdgeOptions) :
    o.toJson.get? "label" = o.label.map .string ∧
    o.toJson.get? "description" = o.description.map .string ∧
    o.toJson.get? "selfOnly" = if o.selfOnly then some (.bool true) else none := by
  refine ⟨Json.get?_ofMembers ?_ ?_, Json.get?_ofMembers ?_ ?_, Json.get?_ofMembers ?_ ?_⟩ <;> simp

theorem DocsOptions.get?_toJson (d : DocsOptions) :
    d.toJson.get? "file" = some (.string d.file) ∧
    d.toJson.get? "markerTag" = some (.string d.markerTag) ∧
    d.toJson.get? "content" = d.content.map .string := by
  refine ⟨Json.get?_ofMembers ?_ ?_, Json.get?_ofMembers ?_ ?_, Json.get?_ofMembers ?_ ?_⟩ <;> simp

theorem PackageRule.get?_toJson (r : PackageRule) :
    r.toJson.get? "name" = some (.string r.name) ∧
    r.toJson.get? "importNames" = r.importNames.map .strings ∧
    r.toJson.get? "allowedInFolders" = some (.strings r.allowedInFolders) := by
  refine ⟨Json.get?_ofMembers ?_ ?_, Json.get?_ofMembers ?_ ?_, Json.get?_ofMembers ?_ ?_⟩ <;> simp

namespace Config

open Json

variable {α : Type} {R : Json → α → Prop} {write : α → Json} {part : Option Json}
  {known : String → Prop}

/-- How the overrides are written. -/
def writtenOverrides (o : List (String × Members)) : Json :=
  .object (o.map fun (folder, rules) => (folder, .object rules))

theorem get?_toJson (c : Config) :
    c.toJson.get? "appAlias" = some (.string c.appAlias) ∧
    c.toJson.get? "dependencyFlow" = some c.flow.toJson ∧
    c.toJson.get? "docs" = c.docs.map DocsOptions.toJson ∧
    c.toJson.get? "lintFiles" = some (.strings c.lintFiles) ∧
    c.toJson.get? "moduleLayout" = some (.string c.moduleLayout.name) ∧
    c.toJson.get? "overrideRules" =
      (if c.overrides.isEmpty then none else some (writtenOverrides c.overrides)) ∧
    c.toJson.get? "packageImportRules" =
      (if c.packageRules.isEmpty then none
        else some (.array (c.packageRules.map PackageRule.toJson))) := by
  refine ⟨get?_ofMembers ?_ ?_, get?_ofMembers ?_ ?_, get?_ofMembers ?_ ?_, get?_ofMembers ?_ ?_,
    get?_ofMembers ?_ ?_, get?_ofMembers ?_ ?_, get?_ofMembers ?_ ?_⟩ <;> simp [writtenOverrides]

/-! ## Writing back -/

/-- Whatever a value describes is described again by the value that is written for it, which is not
`null`. -/
def WritesBack (R : Json → α → Prop) (write : α → Json) : Prop :=
  ∀ j a, R j a → write a ≠ .null ∧ R (write a) a

theorem writesBack_text : WritesBack DescribesText .string :=
  fun _ _ _ => ⟨by simp, rfl⟩

theorem writesBack_name : WritesBack DescribesName .string :=
  fun _ _ h => ⟨by simp, rfl, h.2⟩

theorem writesBack_folder : WritesBack (DescribesFolder known) .string :=
  fun _ _ h => ⟨by simp, rfl, h.2⟩

theorem writesBack_pattern : WritesBack DescribesPattern .string :=
  fun _ _ h => ⟨by simp, ⟨rfl, h.1.2⟩, h.2⟩

theorem WritesBack.list (h : WritesBack R write) :
    WritesBack (DescribesList R) fun as => .array (as.map write) := by
  rintro j as ⟨items, rfl, has⟩
  refine ⟨by simp, _, rfl, ?_⟩
  induction has with
  | nil => exact .nil
  | cons ha _ ih => exact .cons (h _ _ ha).2 ih

theorem WritesBack.nonempty (h : WritesBack R write) :
    WritesBack (DescribesNonempty R) fun as => .array (as.map write) :=
  fun j as has => ⟨(h.list j as has.2).1, has.1, (h.list j as has.2).2⟩

theorem WritesBack.required (h : WritesBack R write) {a : α} (ha : DescribesRequired R part a) :
    DescribesRequired R (some (write a)) a := by
  obtain ⟨j, -, ha⟩ := ha
  exact ⟨_, rfl, (h j a ha).2⟩

theorem WritesBack.optional (h : WritesBack R write) {found : Option α}
    (hfound : DescribesOptional R part found) : DescribesOptional R (found.map write) found := by
  cases hfound with
  | missing => exact .missing
  | null => exact .missing
  | there _ ha => exact .there (h _ _ ha).1 (h _ _ ha).2

/-- What a missing part stands for may be left out, and nothing else. -/
theorem WritesBack.unless (h : WritesBack R write) {absent a : α} {skip : Bool}
    (ha : DescribesOr absent R part a) (hskip : skip = true ↔ a = absent) :
    DescribesOr absent R (if skip then none else some (write a)) a := by
  cases skip with
  | true => exact ⟨none, .missing, hskip.mp rfl⟩
  | false =>
    obtain ⟨found, hfound, rfl⟩ := ha
    cases hfound with
    | missing => exact absurd (hskip.mpr rfl) (by simp)
    | null => exact absurd (hskip.mpr rfl) (by simp)
    | there _ ha => exact ⟨_, .there (h _ _ ha).1 (h _ _ ha).2, rfl⟩

/-! ## The sections -/

theorem writesBack_edgeOptions : WritesBack DescribesEdgeOptions EdgeOptions.toJson := by
  rintro j o ⟨members, rfl, -, hlabel, hdescription⟩
  obtain ⟨written, hwritten⟩ : ∃ written, o.toJson = .object written := ⟨_, rfl⟩
  have hparts := o.get?_toJson
  simp only [hwritten, get?_object] at hparts
  obtain ⟨hl, hd, hs⟩ := hparts
  refine ⟨by simp [hwritten], written, hwritten, ?_, ?_, ?_⟩
  · rw [hs]
    cases o.selfOnly with
    | true => exact ⟨some true, .there (by simp) rfl, rfl⟩
    | false => exact ⟨none, .missing, rfl⟩
  · rw [hl]
    exact writesBack_text.optional hlabel
  · rw [hd]
    exact writesBack_text.optional hdescription

theorem writesBack_edge : WritesBack DescribesEdge Edge.toJson := by
  rintro j e ⟨first, second, more, rfl, hsource, htarget, hoptions⟩
  refine ⟨by simp [Edge.toJson], .string e.source, .string e.target, _, rfl,
    (writesBack_name _ _ hsource).2, (writesBack_name _ _ htarget).2, ?_⟩
  have hwritten := writesBack_edgeOptions.unless hoptions EdgeOptions.isEmpty_iff
  cases h : e.options.isEmpty with
  | true => simpa [h] using hwritten
  | false => simpa [h] using hwritten

theorem writesBack_docs : WritesBack DescribesDocs DocsOptions.toJson := by
  rintro j d ⟨hfile, htag, hcontent⟩
  obtain ⟨hf, ht, hc⟩ := d.get?_toJson
  refine ⟨by simp [DocsOptions.toJson, ofMembers], ?_, ?_, ?_⟩
  · rw [hf]
    exact writesBack_name.required hfile
  · rw [ht]
    exact writesBack_name.required htag
  · rw [hc]
    exact writesBack_text.optional hcontent

theorem describesImportNames_map {names : Option (List String)}
    (h : DescribesImportNames part names) : DescribesImportNames (names.map .strings) names := by
  obtain ⟨found, hfound, rfl⟩ := h
  cases hfound with
  | missing => exact ⟨none, .missing, rfl⟩
  | null => exact ⟨none, .missing, rfl⟩
  | @there _ listed _ hlisted =>
    cases listed with
    | nil => exact ⟨none, .missing, rfl⟩
    | cons name more =>
      obtain ⟨hnull, hwritten⟩ := writesBack_name.list _ _ hlisted
      exact ⟨some (name :: more), .there hnull hwritten, rfl⟩

theorem writesBack_packageRule : WritesBack (DescribesPackageRule known) PackageRule.toJson := by
  rintro j r ⟨hname, hnames, hallowed⟩
  obtain ⟨hn, hi, ha⟩ := r.get?_toJson
  refine ⟨by simp [PackageRule.toJson, ofMembers], ?_, ?_, ?_⟩
  · rw [hn]
    exact writesBack_name.required hname
  · rw [hi]
    exact describesImportNames_map hnames
  · rw [ha]
    exact writesBack_folder.nonempty.required hallowed

theorem mem_writtenOverrides {o : List (String × Members)} {key : String} {value : Json} :
    (key, value) ∈ o.map (fun (folder, rules) => (folder, Json.object rules)) ↔
      ∃ rules, (key, rules) ∈ o ∧ value = .object rules := by
  constructor
  · intro h
    obtain ⟨⟨folder, rules⟩, hmem, heq⟩ := List.mem_map.mp h
    obtain ⟨rfl, rfl⟩ := Prod.mk.inj heq
    exact ⟨rules, hmem, rfl⟩
  · rintro ⟨rules, hmem, rfl⟩
    exact List.mem_map.mpr ⟨_, hmem, rfl⟩

/-- Where no key repeats, every object is the last under its key. -/
theorem lastObject_written_iff {o : List (String × Members)} (hsorted : SortedByKey o)
    {key : String} {rules : Members} :
    LastObject (o.map fun (folder, rules) => (folder, .object rules)) key rules ↔
      (key, rules) ∈ o := by
  induction o with
  | nil => simp [not_lastObject_nil]
  | cons head o ih =>
    obtain ⟨folder, own⟩ := head
    obtain ⟨hhead, hsorted⟩ := sortedByKey_cons_iff.mp hsorted
    rw [List.map_cons, lastObject_cons_iff, ih hsorted, List.mem_cons, Prod.mk.injEq,
      Json.object.injEq, eq_comm (a := folder), eq_comm (a := own), or_comm, ← and_assoc]
    refine or_congr_left (and_iff_left_of_imp ?_)
    rintro ⟨rfl, -⟩ ⟨other, hother⟩
    obtain ⟨rules', hmem, -⟩ := mem_writtenOverrides.mp hother
    exact (hhead _ hmem).2 rfl

theorem writesBack_overrides : WritesBack (DescribesOverrides known) writtenOverrides := by
  rintro j o ⟨entries, rfl, hall, hsorted, hmem⟩
  refine ⟨by simp [writtenOverrides], _, rfl, ?_, hsorted, fun key rules =>
    (lastObject_written_iff hsorted).symm⟩
  rintro ⟨key, value⟩ hentry
  obtain ⟨rules, hrules, rfl⟩ := mem_writtenOverrides.mp hentry
  -- the key has an object in the value that was read, so it is known
  obtain ⟨before, after, rfl, -⟩ := (hmem key rules).mp hrules
  exact ⟨(hall (key, .object rules) (by simp)).1, Or.inr ⟨rules, rfl⟩⟩

theorem writesBack_lintFiles : WritesBack DescribesLintFiles .strings := by
  rintro j patterns (⟨s, hs, rfl⟩ | hpatterns)
  · refine ⟨by simp [strings], Or.inr ⟨by simp, _, rfl, ?_⟩⟩
    exact .cons (writesBack_pattern _ _ hs).2 .nil
  · obtain ⟨hnull, hwritten⟩ := writesBack_pattern.nonempty _ _ hpatterns
    exact ⟨hnull, Or.inr hwritten⟩

/-! ## The whole -/

theorem describes_toJson {raw : Members} {c : Config} (h : Describes raw c) :
    ∃ members, c.toJson = .object members ∧ Describes members c := by
  obtain ⟨halias, ⟨_, -, hedges⟩, hdocs, hoverrides, hpackages, hlint, -⟩ := h
  obtain ⟨written, hwritten⟩ : ∃ written, c.toJson = .object written := ⟨_, rfl⟩
  have hparts := c.get?_toJson
  simp only [hwritten, get?_object] at hparts
  obtain ⟨ha, hf, hd, hl, hm, ho, hp⟩ := hparts
  obtain ⟨hflow, hedges⟩ := writesBack_edge.list _ _ hedges
  refine ⟨written, hwritten, ?_, ⟨c.flow.toJson, ⟨hflow, Or.inl hf⟩, hedges⟩, ?_, ?_, ?_, ?_, ?_⟩
  · rw [ha]
    exact writesBack_name.required halias
  · rw [hd]
    exact writesBack_docs.optional hdocs
  · rw [ho]
    exact writesBack_overrides.unless hoverrides List.isEmpty_iff
  · rw [hp]
    exact writesBack_packageRule.list.unless hpackages List.isEmpty_iff
  · rw [hl]
    exact writesBack_lintFiles.required hlint
  · rw [hm]
    exact ⟨some c.moduleLayout, .there (by simp) rfl, rfl⟩

end Config

/-! ## Terse values -/

namespace Json

/-- A part that says something where it is there: it is not `null`, not `false` and not empty. -/
def IsTelling (part : Option Json) : Prop :=
  ∀ j, part = some j → j ≠ .null ∧ j ≠ .bool false ∧ j ≠ .array [] ∧ j ≠ .object []

/-- A pair of folders, or a triple with options of which some is set. -/
def IsTerseEdge (j : Json) : Prop :=
  ∃ source target more, j = .array (.string source :: .string target :: more) ∧
    (more = [] ∨ ∃ options, more = [.object options] ∧ options ≠ [] ∧
      ∀ key ∈ ["label", "description", "selfOnly"], IsTelling (Members.find? options key))

/-- Nothing is there that could be left out, and the overrides stand in the order of their keys. -/
structure IsTerse (v : Json) : Prop where
  flow : ∃ edges, v.get? "dependencyFlow" = some (.array edges) ∧ ∀ edge ∈ edges, IsTerseEdge edge
  sections : ∀ key ∈ ["docs", "overrideRules", "packageImportRules"], IsTelling (v.get? key)
  docs : ∀ docs, v.get? "docs" = some docs → IsTelling (docs.get? "content")
  overrides : ∀ overrides, v.get? "overrideRules" = some overrides →
    ∃ o, Config.SortedByKey o ∧
      overrides = .object (o.map fun (folder, rules) => (folder, .object rules))
  packageRules : ∀ rules, v.get? "packageImportRules" = some (.array rules) →
    ∀ rule ∈ rules, IsTelling (rule.get? "importNames")

theorem isTelling_none : IsTelling none := by
  simp [IsTelling]

theorem isTelling_string (s : Option String) : IsTelling (s.map .string) := by
  cases s <;> simp [IsTelling]

end Json

namespace Config

open Json

theorem isTerseEdge_toJson (e : Edge) : IsTerseEdge e.toJson := by
  refine ⟨e.source, e.target, _, rfl, ?_⟩
  cases h : e.options.isEmpty with
  | true => exact Or.inl (by simp)
  | false =>
    obtain ⟨written, hwritten⟩ : ∃ written, e.options.toJson = .object written := ⟨_, rfl⟩
    have hparts := e.options.get?_toJson
    simp only [hwritten, get?_object] at hparts
    obtain ⟨hl, hd, hs⟩ := hparts
    refine Or.inr ⟨written, by simp [hwritten], ?_, ?_⟩
    · -- without any member no option is set
      rintro rfl
      simp only [Members.find?, List.lookup_nil, eq_comm (a := none), Option.map_eq_none_iff,
        ite_eq_right_iff, reduceCtorEq, imp_false] at hl hd hs
      simp [EdgeOptions.isEmpty, hl, hd, hs] at h
    · simp only [List.forall_mem_cons, hl, hd, hs]
      refine ⟨isTelling_string _, isTelling_string _, ?_, by simp⟩
      cases e.options.selfOnly <;> simp [IsTelling]

theorem isTelling_importNames {part : Option Json} {names : Option (List String)}
    (h : DescribesImportNames part names) : IsTelling (names.map .strings) := by
  obtain ⟨found, -, rfl⟩ := h
  rcases found with _ | _ | ⟨name, more⟩
  · exact isTelling_none
  · exact isTelling_none
  · simp [IsTelling, strings]

/-- Whatever stands in a list that is described is described by some item. -/
theorem exists_of_describesList {α : Type} {R : Json → α → Prop} {j : Json} {as : List α}
    (h : DescribesList R j as) {a : α} (ha : a ∈ as) : ∃ item, R item a := by
  obtain ⟨items, -, has⟩ := h
  have hflipped : List.Forall₂ (flip R) as items := List.Forall₂.flip has
  obtain ⟨item, -, hitem⟩ := exists_of_forall₂ hflipped ha
  exact ⟨item, hitem⟩

theorem isTelling_unless {skip : Bool} {j : Json} (h : skip = false → IsTelling (some j)) :
    IsTelling (if skip then none else some j) := by
  cases skip with
  | true => exact isTelling_none
  | false => exact h rfl

theorem isTerse_toJson {raw : Members} {c : Config} (h : Describes raw c) : IsTerse c.toJson := by
  obtain ⟨-, hf, hd, -, -, ho, hp⟩ := c.get?_toJson
  refine ⟨⟨_, hf, ?_⟩, ?_, ?_, ?_, ?_⟩
  · intro edge hedge
    obtain ⟨e, -, rfl⟩ := List.mem_map.mp hedge
    exact isTerseEdge_toJson e
  · simp only [List.forall_mem_cons, hd, ho, hp]
    refine ⟨?_, isTelling_unless ?_, isTelling_unless ?_, by simp⟩
    · cases c.docs <;> simp [IsTelling, DocsOptions.toJson, ofMembers]
    · cases c.overrides <;> simp [IsTelling, writtenOverrides]
    · cases c.packageRules <;> simp [IsTelling]
  · intro docs hdocs
    rw [hd, Option.map_eq_some_iff] at hdocs
    obtain ⟨d, -, rfl⟩ := hdocs
    rw [d.get?_toJson.2.2]
    exact isTelling_string d.content
  · intro overrides hoverrides
    rw [ho] at hoverrides
    obtain ⟨-, rfl⟩ : c.overrides ≠ [] ∧ writtenOverrides c.overrides = overrides := by
      simpa using hoverrides
    exact ⟨c.overrides, h.sortedByKey, rfl⟩
  · intro rules hrules rule hrule
    rw [hp] at hrules
    obtain ⟨hsome, rfl⟩ : c.packageRules ≠ [] ∧ c.packageRules.map PackageRule.toJson = rules := by
      simpa using hrules
    obtain ⟨r, hr, rfl⟩ := List.mem_map.mp hrule
    rw [r.get?_toJson.2.1]
    rcases eq_or_exists_of_describesOr h.packageRules with hnone | ⟨_, hlist⟩
    · exact absurd hnone hsome
    · obtain ⟨item, -, hnames, -⟩ := exists_of_describesList hlist hr
      exact isTelling_importNames hnames

/-- **Writing and reading.** What was read as a configuration is written tersely, is read as the
same configuration, and is then written as it was before, down to the order of its members. -/
theorem validate_toJson {raw : Json} {c : Config} (h : validate raw = .ok c) :
    IsTerse c.toJson ∧ validate c.toJson = .ok c ∧
      (validate c.toJson).map toJson = .ok c.toJson := by
  obtain ⟨members, -, hc⟩ := validate_eq_ok_iff.mp h
  have hread : validate c.toJson = .ok c := validate_eq_ok_iff.mpr (describes_toJson hc)
  exact ⟨isTerse_toJson hc, hread, by rw [hread]; rfl⟩

/-- A configuration with much that could be left out, under the older name of the flow. -/
def loose : Json :=
  .object [
    ("moduleLayout", .null),
    ("lintFiles", .string "src/\x7bfolder\x7d/*.ts"),
    ("overrideRules", .object [
      ("ui", .object [("max-lines", .string "warn")]), ("core", .null),
      ("app", .object [("no-eval", .string "off")])]),
    ("packageImportRules", .array [.object [
      ("name", .string "react"), ("importNames", .array []),
      ("allowedInFolders", .array [.string "ui"])]]),
    ("appAlias", .string "~app"),
    ("dependencyFlowchart", .array [
      .array [.string "app", .string "ui", .object [("selfOnly", .bool false)]],
      .array [.string "ui", .string "core",
        .object [("label", .string " "), ("selfOnly", .null)]]])]

/-- What `loose` describes. -/
def settled : Config where
  appAlias := "~app"
  flow := ⟨[⟨"app", "ui", {}⟩, ⟨"ui", "core", { label := some " " }⟩]⟩
  docs := none
  lintFiles := ["src/\x7bfolder\x7d/*.ts"]
  moduleLayout := .folder
  overrides := [("app", [("no-eval", .string "off")]), ("ui", [("max-lines", .string "warn")])]
  packageRules := [⟨"react", none, ["ui"]⟩]

theorem loose_settles : validate loose = .ok settled ∧ IsTerse settled.toJson ∧
    validate settled.toJson = .ok settled ∧
    (validate settled.toJson).map toJson = .ok settled.toJson :=
  have h : validate loose = .ok settled := rfl
  ⟨h, validate_toJson h⟩

end Config

end FolderFlow
