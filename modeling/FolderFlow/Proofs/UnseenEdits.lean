import FolderFlow.Proofs.DistinctKeys
import FolderFlow.Proofs.FaultOrder
import Mathlib.Logic.Relation

/-!
# Edits that validation does not see

`Config.validate_of_edited`: a configuration reads the same, with the same result or the same fault,
after members that are `null` or not known have been taken out or put in, after the members of an
object have changed places, and after an edge has been changed behind its options.

A reader that looks up certain keys cannot see such an edit of an object, since what is found under
these keys is the same or `null` (`Members.Edited.present_find?_eq`). Each part of a configuration
is read alike then, and a part has no more say than that (`Config.validateMembers_of_alike`).
-/

namespace FolderFlow

open ConfigError (Part)

/-! ## Edits -/

/-- An edit of an object that only some keys are looked up in: members that are `null` are taken
out, or members that are not known, or the members change places. No key stands twice in an object,
so no other member comes to light when one is taken out. -/
inductive Members.Edited (known : List String) : Members → Members → Prop
  | dropNulls {members : Members} {keep : String × Json → Bool} (hkeys : (keys members).Nodup)
      (hkeep : ∀ member ∈ members, member.2 ≠ .null → keep member = true) :
      Edited known members (members.filter keep)
  | dropUnknown {members : Members} {keep : String × Json → Bool}
      (hkeep : ∀ member ∈ members, member.1 ∈ known → keep member = true) :
      Edited known members (members.filter keep)
  | reorder {members members' : Members} (hkeys : (keys members).Nodup)
      (hperm : members.Perm members') : Edited known members members'

namespace Config

def docsKeys : List String :=
  ["file", "markerTag", "content"]

def optionKeys : List String :=
  ["selfOnly", "label", "description"]

def packageRuleKeys : List String :=
  ["name", "importNames", "allowedInFolders"]

/-- The keys of all parts. -/
def partKeys : List String :=
  Part.inOrder.flatMap Part.keys

/-- An edit of an edge: of its options, of what stands behind them, or of options that are `null`
and the last of the edge. -/
inductive EdgeEdited : Json → Json → Prop
  | options {first second : Json} {members members' : Members} {more : List Json}
      (h : Members.Edited optionKeys members members') :
      EdgeEdited (.array (first :: second :: .object members :: more))
        (.array (first :: second :: .object members' :: more))
  | rest {first second options : Json} {more more' : List Json} :
      EdgeEdited (.array (first :: second :: options :: more))
        (.array (first :: second :: options :: more'))
  | dropNull {first second : Json} :
      EdgeEdited (.array [first, second, .null]) (.array [first, second])

/-- An edit of what stands under a key of a part. -/
inductive PartEdited : Part → Json → Json → Prop
  | docs {members members' : Members} (h : Members.Edited docsKeys members members') :
      PartEdited .docs (.object members) (.object members')
  | edge {edge edge' : Json} {before after : List Json} (h : EdgeEdited edge edge') :
      PartEdited .flow (.array (before ++ edge :: after)) (.array (before ++ edge' :: after))
  | packageRule {members members' : Members} {before after : List Json}
      (h : Members.Edited packageRuleKeys members members') :
      PartEdited .packageRules (.array (before ++ .object members :: after))
        (.array (before ++ .object members' :: after))

/-- An edit of a configuration: of the object itself, or within one of its parts. -/
inductive Edited : Json → Json → Prop
  | root {members members' : Members} (h : Members.Edited partKeys members members') :
      Edited (.object members) (.object members')
  | part {part : Part} {key : String} {value value' : Json} {before after : Members}
      (hkey : key ∈ part.keys) (h : PartEdited part value value') :
      Edited (.object (before ++ (key, value) :: after))
        (.object (before ++ (key, value') :: after))

end Config

/-! ## What is found in an edited object -/

namespace Members

open Config (present present_eq_some_iff)

variable {known : List String} {members members' : Members} {key : String}

theorem find?_filter_of_keep {keep : String × Json → Bool}
    (hkeep : ∀ member ∈ members, member.1 = key → keep member = true) :
    find? (members.filter keep) key = find? members key := by
  induction members with
  | nil => rfl
  | cons head rest ih =>
    obtain ⟨k, value⟩ := head
    have hrest := ih fun member hmember => hkeep member (List.mem_cons_of_mem _ hmember)
    unfold find? at hrest ⊢
    by_cases hkey : key = k
    · subst hkey
      rw [List.filter_cons_of_pos (hkeep _ List.mem_cons_self rfl), List.lookup_cons_self,
        List.lookup_cons_self]
    · have hne : (key == k) = false := by simpa using hkey
      rw [List.lookup_cons, hne, ← hrest, List.filter_cons]
      split
      · rw [List.lookup_cons, hne]
      · rfl

theorem find?_of_perm (hkeys : (keys members).Nodup) (hperm : members.Perm members') :
    find? members key = find? members' key := by
  have hkeys' : (keys members').Nodup := (hperm.map Prod.fst).nodup_iff.mp hkeys
  refine Option.ext fun value => ?_
  rw [find?_eq_some_iff hkeys, find?_eq_some_iff hkeys', hperm.mem_iff]

/-- Under a known key the same is found, but for `null` and nothing at all. -/
theorem Edited.present_find?_eq (h : Edited known members members') (hkey : key ∈ known) :
    present (find? members key) = present (find? members' key) := by
  cases h with
  | @dropNulls keep hkeys hkeep =>
    have hkeys' : (keys (members.filter keep)).Nodup :=
      hkeys.sublist (List.filter_sublist.map Prod.fst)
    refine Option.ext fun value => ?_
    rw [present_eq_some_iff, present_eq_some_iff, find?_eq_some_iff hkeys,
      find?_eq_some_iff hkeys', List.mem_filter]
    refine and_congr_left fun hnull => ?_
    exact (and_iff_left_of_imp fun hmem => hkeep _ hmem hnull).symm
  | @dropUnknown keep hkeep =>
    have hkept : ∀ member ∈ members, member.1 = key → keep member = true :=
      fun member hmember hsame => hkeep member hmember (hsame ▸ hkey)
    rw [find?_filter_of_keep hkept]
  | reorder hkeys hperm => rw [find?_of_perm hkeys hperm]

/-- A value that is put in the place of another is all that can be found anew. -/
theorem find?_replace {before after : Members} {value value' : Json} (key k : String) :
    find? (before ++ (key, value) :: after) k = find? (before ++ (key, value') :: after) k ∨
      (k = key ∧ find? (before ++ (key, value) :: after) k = some value ∧
        find? (before ++ (key, value') :: after) k = some value') := by
  unfold find?
  rw [List.lookup_append, List.lookup_append]
  cases before.lookup k with
  | some found => exact Or.inl rfl
  | none =>
    by_cases hk : k = key
    · subst hk
      simp
    · have hne : (k == key) = false := by simpa using hk
      simp [List.lookup_cons, hne]

end Members

namespace Config

/-! ## Readers that do not tell `null` from nothing -/

variable {α : Type} {found found' : Option Json} {members members' : Members} {known : List String}
  {folders : FolderSet} {part : Part} {value value' : Json} {index : Nat}

/-- A reader for which `null` is nothing depends on what is there besides. -/
theorem eq_of_present_eq {β : Type} (read : Option Json → β)
    (hnull : read (some .null) = read none) (h : present found = present found') :
    read found = read found' := by
  have hread (found : Option Json) : read (present found) = read found := by
    match found with
    | some .null => exact hnull.symm
    | none | some (.bool _) | some (.number _) | some (.string _) | some (.array _)
    | some (.object _) => rfl
  rw [← hread found, ← hread found', h]

/-- Such a reader does not see an edit under a key that is known. -/
theorem read_eq_of_edited {β : Type} (h : Members.Edited known members members') (key : String)
    (hkey : key ∈ known) (read : Option Json → β) (hnull : read (some .null) = read none) :
    read (Members.find? members key) = read (Members.find? members' key) :=
  eq_of_present_eq read hnull (h.present_find?_eq hkey)

/-! ## Edited parts -/

theorem readDocs_of_edited (h : Members.Edited docsKeys members members') :
    readDocs (.object members) = readDocs (.object members') := by
  have hfile := read_eq_of_edited h "file" (by decide) nonBlank? rfl
  have hmarkerTag := read_eq_of_edited h "markerTag" (by decide) nonBlank? rfl
  have hcontent := read_eq_of_edited h "content" (by decide) (text? .docsContent) rfl
  simp only [readDocs, Json.get?, hfile, hmarkerTag, hcontent]

theorem readEdgeOptions_of_edited (index : Nat) (h : Members.Edited optionKeys members members') :
    readEdgeOptions index members = readEdgeOptions index members' := by
  have hselfOnly := read_eq_of_edited h "selfOnly" (by decide)
    (readFlag (.edgeOptionType index "selfOnly" "boolean")) rfl
  have hlabel := read_eq_of_edited h "label" (by decide)
    (text? (.edgeOptionType index "label" "string")) rfl
  have hdescription := read_eq_of_edited h "description" (by decide)
    (text? (.edgeOptionType index "description" "string")) rfl
  rw [readEdgeOptions_eq, readEdgeOptions_eq, hselfOnly, hlabel, hdescription]

theorem readPackageRule_of_edited (folders : FolderSet) (index : Nat)
    (h : Members.Edited packageRuleKeys members members') :
    readPackageRule folders index (.object members) =
      readPackageRule folders index (.object members') := by
  have hname := read_eq_of_edited h "name" (by decide) nonBlank? rfl
  have himportNames := read_eq_of_edited h "importNames" (by decide) (readImportNames index) rfl
  have hallowed := read_eq_of_edited h "allowedInFolders" (by decide)
    (readAllowedFolders folders index) rfl
  simp only [readPackageRule_eq, Json.get?, hname, himportNames, hallowed]

/-- An edge is read up to its options. -/
theorem readEdge_of_edited (index : Nat) (h : EdgeEdited value value') :
    readEdge index value = readEdge index value' := by
  cases h with
  | @options first second members members' more h =>
    have hoptions : readOptionsOf index (some (.object members)) =
        readOptionsOf index (some (.object members')) := readEdgeOptions_of_edited index h
    rw [readEdge_eq, readEdge_eq, List.head?_cons, List.head?_cons, hoptions]
  | rest => rfl
  | dropNull => rfl

theorem eachFrom_replace {read : Nat → Json → Except ConfigError α}
    (h : ∀ index, read index value = read index value') (index : Nat) (before after : List Json) :
    eachFrom read index (before ++ value :: after) =
      eachFrom read index (before ++ value' :: after) := by
  induction before generalizing index with
  | nil => rw [List.nil_append, List.nil_append, eachFrom, eachFrom, h]
  | cons first before ih => rw [List.cons_append, List.cons_append, eachFrom, eachFrom, ih]

/-! ## Parts that are read alike -/

/-- Values that are read alike as a part of a configuration. The older name of the flow is looked up
only where nothing stands under the other, so it matters too whether anything does. -/
def Alike : Part → Option Json → Option Json → Prop
  | .root, _, _ => True
  | .appAlias, found, found' => nonBlank? found = nonBlank? found'
  | .flow, found, found' =>
    (present found).isSome = (present found').isSome ∧
      readFlow (present found) = readFlow (present found')
  | .docs, found, found' => readOptional readDocs found = readOptional readDocs found'
  | .overrideRules, found, found' =>
    ∀ folders, readOptional (readOverrides folders) found =
      readOptional (readOverrides folders) found'
  | .packageRules, found, found' =>
    ∀ folders, readOptional (readPackageRules folders) found =
      readOptional (readPackageRules folders) found'
  | .lintFiles, found, found' => readLintFiles found = readLintFiles found'
  | .moduleLayout, found, found' => readModuleLayout found = readModuleLayout found'

theorem alike_of_present_eq (part : Part) (h : present found = present found') :
    Alike part found found' := by
  cases part with
  | root => trivial
  | appAlias => exact eq_of_present_eq nonBlank? rfl h
  | flow => exact ⟨congrArg Option.isSome h, congrArg readFlow h⟩
  | docs => exact eq_of_present_eq (readOptional readDocs) rfl h
  | overrideRules =>
    exact fun folders => eq_of_present_eq (readOptional (readOverrides folders)) rfl h
  | packageRules =>
    exact fun folders => eq_of_present_eq (readOptional (readPackageRules folders)) rfl h
  | lintFiles => exact eq_of_present_eq readLintFiles rfl h
  | moduleLayout => exact eq_of_present_eq readModuleLayout rfl h

/-- What has been edited is read alike as the part in which it stands. -/
theorem alike_of_partEdited (h : PartEdited part value value') :
    Alike part (some value) (some value') := by
  cases h with
  | docs h => exact congrArg (Except.map some) (readDocs_of_edited h)
  | edge h =>
    refine ⟨rfl, ?_⟩
    exact congrArg (Except.map Flow.mk)
      (eachFrom_replace (fun index => readEdge_of_edited index h) 0 _ _)
  | packageRule h =>
    intro folders
    exact congrArg (Except.map some)
      (eachFrom_replace (fun index => readPackageRule_of_edited folders index h) 0 _ _)

theorem readFlow_flowMember_of_alike (h : ∀ key ∈ Part.flow.keys,
    Alike .flow (Members.find? members key) (Members.find? members' key)) :
    readFlow (flowMember members) = readFlow (flowMember members') := by
  obtain ⟨hsome, hread⟩ := h "dependencyFlow" (by decide)
  obtain ⟨-, hold⟩ := h "dependencyFlowchart" (by decide)
  unfold flowMember
  cases hfound : present (Members.find? members "dependencyFlow") with
  | none =>
    cases hfound' : present (Members.find? members' "dependencyFlow") with
    | none => exact hold
    | some j => simp [hfound, hfound'] at hsome
  | some j =>
    cases hfound' : present (Members.find? members' "dependencyFlow") with
    | none => simp [hfound, hfound'] at hsome
    | some j' =>
      rw [hfound, hfound'] at hread
      exact hread

/-- A configuration reads the same when all its parts do. -/
theorem validateMembers_of_alike (h : ∀ part : Part, ∀ key ∈ part.keys,
    Alike part (Members.find? members key) (Members.find? members' key)) :
    validateMembers members = validateMembers members' := by
  have happAlias : nonBlank? _ = nonBlank? _ := h .appAlias "appAlias" (by decide)
  have hflow := readFlow_flowMember_of_alike (h .flow)
  have hdocs : readOptional readDocs _ = readOptional readDocs _ := h .docs "docs" (by decide)
  have hoverrides : ∀ folders, readOptional (readOverrides folders) _ =
      readOptional (readOverrides folders) _ := h .overrideRules "overrideRules" (by decide)
  have hpackageRules : ∀ folders, readOptional (readPackageRules folders) _ =
      readOptional (readPackageRules folders) _ :=
    h .packageRules "packageImportRules" (by decide)
  have hlintFiles : readLintFiles _ = readLintFiles _ := h .lintFiles "lintFiles" (by decide)
  have hmoduleLayout : readModuleLayout _ = readModuleLayout _ :=
    h .moduleLayout "moduleLayout" (by decide)
  simp only [validateMembers, happAlias, hflow, hdocs, hoverrides, hpackageRules, hlintFiles,
    hmoduleLayout]

/-! ## The whole -/

theorem mem_partKeys {key : String} (h : key ∈ part.keys) : key ∈ partKeys :=
  List.mem_flatMap.mpr ⟨part, Part.mem_inOrder part, h⟩

theorem eq_of_mem_keys {part' : Part} : ∀ key ∈ part.keys, key ∈ part'.keys → part = part' := by
  cases part <;> cases part' <;> decide

theorem validate_of_edit {raw raw' : Json} (h : Edited raw raw') :
    validate raw = validate raw' := by
  cases h with
  | root h =>
    refine validateMembers_of_alike fun part key hkey => ?_
    exact alike_of_present_eq part (h.present_find?_eq (mem_partKeys hkey))
  | @part part key value value' before after hkey h =>
    refine validateMembers_of_alike fun other k hk => ?_
    rcases Members.find?_replace key k with hsame | ⟨rfl, hvalue, hvalue'⟩
    · exact alike_of_present_eq other (congrArg present hsame)
    · -- the edited value is looked at for no part but its own
      obtain rfl := eq_of_mem_keys k hk hkey
      rw [hvalue, hvalue']
      exact alike_of_partEdited h

/-- **Edits that are not seen.** Any number of edits, in any order and either way, leave the result
or the fault as it is. -/
theorem validate_of_edited {raw raw' : Json} (h : Relation.EqvGen Edited raw raw') :
    validate raw = validate raw' := by
  induction h with
  | rel raw raw' h => exact validate_of_edit h
  | refl raw => rfl
  | symm raw raw' _ ih => exact ih.symm
  | trans raw raw' raw'' _ _ ih ih' => exact ih.trans ih'

/-! ## A chain of edits -/

/-- A configuration of one edge, with members that have no say in it. -/
def wordy (edge : Json) : Members := [
  ("lintFiles", .string "src/\x7bfolder\x7d/**"),
  ("docs", .null),
  ("note", .bool true),
  ("dependencyFlow", .array [edge]),
  ("appAlias", .string "@")]

/-- The same configuration without these members. -/
def brief (edge : Json) : Members := [
  ("appAlias", .string "@"),
  ("dependencyFlow", .array [edge]),
  ("lintFiles", .string "src/\x7bfolder\x7d/**")]

theorem edited_wordy_brief (first second : Json) :
    Relation.EqvGen Edited (.object (wordy (.array [first, second, .null])))
      (.object (brief (.array [first, second]))) := by
  have hedge : Edited (.object (wordy (.array [first, second, .null])))
      (.object (wordy (.array [first, second]))) :=
    @Edited.part .flow "dependencyFlow" _ _ ((wordy .null).take 3) ((wordy .null).drop 4)
      (by decide) (@PartEdited.edge _ _ [] [] .dropNull)
  have hnull : Edited (.object (wordy (.array [first, second])))
      (.object ((wordy (.array [first, second])).filter fun member => !member.2.isNull)) :=
    .root (.dropNulls (by simp [wordy, Members.keys]) (by simp [wordy, Json.isNull]))
  have hnote : Edited
      (.object ((wordy (.array [first, second])).filter fun member => !member.2.isNull))
      (.object (brief (.array [first, second])).reverse) :=
    .root (@Members.Edited.dropUnknown _ _ (fun member => member.1 != "note")
      (by simp [wordy, partKeys, Part.inOrder, Part.keys, Json.isNull]))
  have horder : Edited (.object (brief (.array [first, second])).reverse)
      (.object (brief (.array [first, second]))) :=
    .root (.reorder (by simp [brief, Members.keys]) (List.reverse_perm _))
  exact ((Relation.EqvGen.rel _ _ hedge).trans _ _ _ (.rel _ _ hnull)).trans _ _ _
    ((Relation.EqvGen.rel _ _ hnote).trans _ _ _ (.rel _ _ horder))

/-- An edge whose options are `null`, among members that are `null` or not known. -/
theorem wordy_reads_as_brief :
    Relation.EqvGen Edited
      (.object (wordy (.array [.string "app", .string "ui", .null])))
      (.object (brief (.array [.string "app", .string "ui"]))) ∧
    validate (.object (wordy (.array [.string "app", .string "ui", .null]))) =
      validate (.object (brief (.array [.string "app", .string "ui"]))) :=
  ⟨edited_wordy_brief _ _, validate_of_edited (edited_wordy_brief _ _)⟩

end Config

end FolderFlow
