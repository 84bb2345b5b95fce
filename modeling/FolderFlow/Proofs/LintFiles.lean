import FolderFlow.Proofs.Enforcement
import FolderFlow.Proofs.RoundTrip

/-!
# Lint files of different folders

`Config.lintGlobs_separate`: a lint-file pattern gives different globs for different folders, and
so the globs of two folders differ at every place of the list.

A pattern is cut at its placeholders (`Text.CutAt`, which leaves no choice) and joined again with
the name of the folder. Globs that are the same are of the same length; a pattern holds a
placeholder, so the names are of the same length too, and stand one above the other behind the
first piece (`Text.intercalate_right_injective`).
-/

namespace FolderFlow

namespace Text

variable {needle cs front rest : List Char} {ps ps' : List (List Char)}

/-! ## Cutting a text -/

/-- A text is cut at every occurrence of the needle, from left to right and without overlap. -/
inductive CutAt (needle : List Char) : List Char → List (List Char) → Prop where
  | whole {cs : List Char} : ¬ needle <:+: cs → CutAt needle cs [cs]
  | cut {front rest : List Char} {ps : List (List Char)} :
      (∀ early, early ++ needle <+: front ++ needle ++ rest → front.length ≤ early.length) →
      CutAt needle rest ps → CutAt needle (front ++ needle ++ rest) (front :: ps)

theorem CutAt.unique (h : CutAt needle cs ps) (h' : CutAt needle cs ps') : ps = ps' := by
  induction h generalizing ps' with
  | whole hnone =>
    cases h' with
    | whole => rfl
    | cut => exact absurd ⟨_, _, rfl⟩ hnone
  | @cut front rest ps hfirst _ ih =>
    generalize htext : front ++ needle ++ rest = text at h'
    cases h' with
    | whole hnone => exact absurd ⟨_, _, htext⟩ hnone
    | @cut front' rest' ps' hfirst' hrest' =>
      -- neither of the two occurrences stands before the other
      have hle : front.length ≤ front'.length := hfirst _ ⟨rest', htext.symm⟩
      have hge : front'.length ≤ front.length := hfirst' _ ⟨rest, htext⟩
      rw [List.append_assoc, List.append_assoc] at htext
      obtain ⟨rfl, htail⟩ := List.append_inj htext (Nat.le_antisymm hle hge)
      obtain rfl := List.append_cancel_left htail
      rw [ih hrest']

theorem CutAt.ne_nil (h : CutAt needle cs ps) : ps ≠ [] := by
  cases h with
  | whole => exact List.cons_ne_nil _ _
  | cut => exact List.cons_ne_nil _ _

/-- Where the needle occurs there are two pieces at least. -/
theorem CutAt.exists_pieces (h : CutAt needle cs ps) (hin : needle <:+: cs) :
    ∃ p q qs, ps = p :: q :: qs := by
  cases h with
  | whole hnone => exact absurd hin hnone
  | cut _ hrest =>
    obtain ⟨q, qs, rfl⟩ := List.exists_cons_of_ne_nil hrest.ne_nil
    exact ⟨_, q, qs, rfl⟩

/-- A character with which no needle begins goes to the first piece. -/
theorem CutAt.cons {c : Char} {p : List Char} (h : CutAt needle cs (p :: ps))
    (hnot : ¬ needle <+: c :: cs) : CutAt needle (c :: cs) ((c :: p) :: ps) := by
  cases h with
  | whole hnone => exact .whole fun hin => (List.infix_cons_iff.mp hin).elim hnot hnone
  | @cut _ rest _ hfirst hrest =>
    show CutAt needle ((c :: p) ++ needle ++ rest) ((c :: p) :: ps)
    refine .cut (fun early hearly => ?_) hrest
    cases early with
    | nil => exact absurd hearly hnot
    | cons d early =>
      have hbehind := (List.cons_prefix_cons.mp hearly).2
      exact Nat.succ_le_succ (hfirst early hbehind)

theorem cutAt_pieces (first : Char) (more cs : List Char) :
    CutAt (first :: more) cs (pieces first more cs) := by
  fun_induction pieces first more cs with
  | case1 => exact .whole (by simp)
  | case2 c cs hbegins ih =>
    obtain ⟨hc, hmore⟩ := Bool.and_eq_true_iff.mp hbegins
    obtain ⟨rest, rfl⟩ := List.isPrefixOf_iff_prefix.mp hmore
    rw [List.drop_left] at ih ⊢
    rw [beq_iff_eq.mp hc]
    show CutAt (first :: more) ([] ++ (first :: more) ++ rest) _
    exact .cut (fun _ _ => Nat.zero_le _) ih
  | case3 c cs _ hnil => exact absurd hnil (pieces_ne_nil first more cs)
  | case4 c cs hnot p ps hpieces ih =>
    rw [hpieces] at ih
    refine ih.cons fun hbegins => hnot ?_
    obtain ⟨rfl, hmore⟩ := List.cons_prefix_cons.mp hbegins
    rw [beq_self_eq_true, Bool.true_and]
    exact List.isPrefixOf_iff_prefix.mpr hmore

/-! ## Joining the pieces -/

theorem length_intercalate_cons (sep p : List Char) (ps : List (List Char)) :
    (sep.intercalate (p :: ps)).length = (p :: ps).flatten.length + ps.length * sep.length := by
  induction ps generalizing p with
  | nil => simp
  | cons q qs ih =>
    rw [List.intercalate_cons_cons, List.length_append, List.length_append, ih,
      @List.flatten_cons _ p, List.length_append, List.length_cons, Nat.succ_mul]
    omega

/-- Pieces joined with different texts give different texts. -/
theorem intercalate_right_injective {sep sep' p q : List Char} {qs : List (List Char)}
    (h : sep.intercalate (p :: q :: qs) = sep'.intercalate (p :: q :: qs)) : sep = sep' := by
  have hlength : sep.length = sep'.length := by
    have h := congrArg List.length h
    rw [length_intercalate_cons, length_intercalate_cons] at h
    exact Nat.eq_of_mul_eq_mul_left (Nat.succ_pos qs.length) (Nat.add_left_cancel h)
  rw [List.intercalate_cons_cons, List.intercalate_cons_cons, List.append_assoc,
    List.append_assoc] at h
  exact (List.append_inj (List.append_cancel_left h) hlength).1

end Text

namespace Config

open Text (CutAt)

variable {raw : Json} {c : Config} {pattern folder : String}

/-! ## Globs of a pattern -/

/-- The glob of the files of a folder. -/
def lintGlob (pattern folder : String) : String :=
  Text.substitute '\x7b' placeholderTail folder pattern

/-- The glob is made of the pieces of the pattern and of the name of the folder. -/
def IsMadeOf (pieces : List (List Char)) (folder glob : String) : Prop :=
  glob.toList = folder.toList.intercalate pieces

theorem cutAt_pattern (pattern : String) :
    CutAt placeholder pattern.toList (Text.pieces '\x7b' placeholderTail pattern.toList) :=
  Text.cutAt_pieces _ _ _

theorem isMadeOf_lintGlob (pattern folder : String) :
    IsMadeOf (Text.pieces '\x7b' placeholderTail pattern.toList) folder (lintGlob pattern folder) :=
  String.toList_ofList

theorem lintGlob_injective (h : placeholder <:+: pattern.toList) :
    Function.Injective (lintGlob pattern) := by
  intro f g hglobs
  have hjoined := (isMadeOf_lintGlob pattern f).symm.trans
    ((congrArg String.toList hglobs).trans (isMadeOf_lintGlob pattern g))
  obtain ⟨p, q, qs, hpieces⟩ := (cutAt_pattern pattern).exists_pieces h
  rw [hpieces] at hjoined
  exact String.toList_injective (Text.intercalate_right_injective hjoined)

/-! ## Lint files of a configuration -/

theorem Describes.holds_placeholder {members : Members} (h : Describes members c)
    (hpattern : pattern ∈ c.lintFiles) : placeholder <:+: pattern.toList := by
  obtain ⟨j, -, ⟨s, hs, hone⟩ | ⟨-, hlist⟩⟩ := h.lintFiles
  · rw [hone, List.mem_singleton] at hpattern
    rw [hpattern]
    exact hs.2
  · obtain ⟨item, hitem⟩ := exists_of_describesList hlist hpattern
    exact hitem.2

/-- The files of different folders differ at every place. -/
theorem files_ne (h : ∀ pattern ∈ c.lintFiles, placeholder <:+: pattern.toList) {f g : String}
    (hne : f ≠ g) {i : Nat} (hi : i < c.lintFiles.length) :
    (c.rulesOf f).files[i]? ≠ (c.rulesOf g).files[i]? := by
  intro hsame
  have hfiles (folder : String) :
      (c.rulesOf folder).files[i]? = some (lintGlob c.lintFiles[i] folder) := by
    show (c.lintFiles.map (lintGlob · folder))[i]? = _
    rw [List.getElem?_map, List.getElem?_eq_getElem hi, Option.map_some]
  rw [hfiles, hfiles] at hsame
  exact hne (lintGlob_injective (h _ (List.getElem_mem hi)) (Option.some.inj hsame))

/-- **Globs keep folders apart.** There is one way to cut a pattern at its placeholders, and the
glob of a folder is made of the pieces and of the name of the folder as it stands. Where there is a
placeholder, different folders have different globs. In an accepted configuration each folder of
the flow has files. They are the globs of all patterns, in their order, and the files of two folders
differ at every place. -/
theorem lintGlobs_separate :
    (∀ pattern, (∃ pieces, (∀ other, CutAt placeholder pattern.toList other ↔ other = pieces) ∧
        ∀ folder, IsMadeOf pieces folder (lintGlob pattern folder)) ∧
      (placeholder <:+: pattern.toList →
        ∀ f g, lintGlob pattern f = lintGlob pattern g ↔ f = g)) ∧
    ∀ raw c, validate raw = .ok c →
      c.folderRules.map FolderRules.folder = c.folders.toList ∧
      (∀ r ∈ c.folderRules, r.files = c.lintFiles.map (lintGlob · r.folder)) ∧
      c.folderRules.Pairwise fun r r' =>
        ∀ i < c.lintFiles.length, r.files[i]? ≠ r'.files[i]? := by
  refine ⟨fun pattern => ⟨?_, fun hin f g => ?_⟩,
    fun raw c hc => ⟨folderRules_folders c, fun r hr => ?_, ?_⟩⟩
  · refine ⟨_, fun other => ⟨fun h => h.unique (cutAt_pattern pattern), ?_⟩,
      isMadeOf_lintGlob pattern⟩
    rintro rfl
    exact cutAt_pattern pattern
  · exact (lintGlob_injective hin).eq_iff
  · obtain ⟨folder, -, rfl⟩ := mem_folderRules.mp hr
    rfl
  · obtain ⟨members, rfl, hdescribes⟩ := validate_eq_ok_iff.mp hc
    have hpatterns : ∀ pattern ∈ c.lintFiles, placeholder <:+: pattern.toList :=
      fun _ hpattern => hdescribes.holds_placeholder hpattern
    refine List.pairwise_map.mpr (c.folders.nodup.imp fun hne i hi => ?_)
    exact files_ne hpatterns hne hi

/-- The name of one folder is the placeholder, and a brace stands before a placeholder. -/
def bracedFolders : Config :=
  { bare "@" [{ source := "\x7bfolder\x7d", target := "b" }] with
    lintFiles := ["\x7b\x7bfolder\x7d\x7bfolder\x7d", "\x7bfolder\x7d"] }

theorem validate_bracedFolders : validate bracedFolders.toJson = .ok bracedFolders := by
  rfl

theorem braced_globs_differ :
    validate bracedFolders.toJson = .ok bracedFolders ∧
    placeholder <:+: "\x7b\x7bfolder\x7d\x7bfolder\x7d".toList ∧
    lintGlob "\x7b\x7bfolder\x7d\x7bfolder\x7d" "\x7bfolder\x7d" ≠
      lintGlob "\x7b\x7bfolder\x7d\x7bfolder\x7d" "b" ∧
    lintGlob "\x7b\x7bfolder\x7d\x7bfolder\x7d" "b" = "\x7bbb" ∧
    bracedFolders.folderRules.Pairwise fun r r' =>
      ∀ i < bracedFolders.lintFiles.length, r.files[i]? ≠ r'.files[i]? := by
  have hin : placeholder <:+: "\x7b\x7bfolder\x7d\x7bfolder\x7d".toList :=
    Text.occursIn_iff.mp (by decide)
  obtain ⟨hglobs, hfiles⟩ := lintGlobs_separate
  have hdiffer := (hglobs _).2 hin "\x7bfolder\x7d" "b"
  refine ⟨validate_bracedFolders, hin, fun hsame => ?_, ?_, (hfiles _ _ validate_bracedFolders).2.2⟩
  · exact absurd (hdiffer.mp hsame) (by decide)
  · cbv

end Config

end FolderFlow
