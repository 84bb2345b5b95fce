import FolderFlow.Restriction.Listing

/-!
# The columns of the short listing

The names of the folders are padded until all lines go on in one column. The padding counts
characters, but the width to which it pads counts bytes. So the column is the largest number of
bytes of a name, and `Listing.column_iff_ascii` says when that is the largest number of characters:
exactly when a name with the most bytes is made of ASCII characters only.
-/

namespace FolderFlow

namespace Text

/-! ## Bytes and characters -/

/-- Every character takes one byte by itself. -/
def IsAscii (text : String) : Prop :=
  ∀ c ∈ text.toList, c.toNat < 128

theorem utf8Size_eq_one_iff {c : Char} : c.utf8Size = 1 ↔ c.toNat < 128 := by
  rw [Char.utf8Size_eq_one_iff, UInt32.le_iff_toNat_le]
  exact Nat.lt_succ_iff.symm

theorem length_le_utf8Length (cs : List Char) : cs.length ≤ utf8Length cs := by
  induction cs with
  | nil => exact Nat.le_refl 0
  | cons c cs ih =>
    have hpos := c.utf8Size_pos
    rw [List.length_cons, utf8Length]
    omega

theorem utf8Length_eq_length_iff {cs : List Char} :
    utf8Length cs = cs.length ↔ ∀ c ∈ cs, c.toNat < 128 := by
  induction cs with
  | nil => simp [utf8Length]
  | cons c cs ih =>
    have hpos := c.utf8Size_pos
    have hle := length_le_utf8Length cs
    rw [utf8Length, List.length_cons, List.forall_mem_cons, ← ih, ← utf8Size_eq_one_iff]
    omega

end Text

namespace Listing

variable {all : List FolderRules} {r : FolderRules} {column column' n : Nat} {lines : List String}

/-! ## The width -/

/-- The number of bytes of the folder's name. -/
def nameBytes (r : FolderRules) : Nat :=
  Text.utf8Length r.folder.toList

theorem length_le_nameBytes (r : FolderRules) : r.folder.length ≤ nameBytes r := by
  rw [nameBytes, ← String.length_toList]
  exact Text.length_le_utf8Length _

theorem nameBytes_eq_length_iff : nameBytes r = r.folder.length ↔ Text.IsAscii r.folder := by
  rw [nameBytes, ← String.length_toList]
  exact Text.utf8Length_eq_length_iff

theorem foldl_max_le_iff (all : List FolderRules) (start n : Nat) :
    all.foldl (fun w r => max w (nameBytes r)) start ≤ n ↔
      start ≤ n ∧ ∀ r ∈ all, nameBytes r ≤ n := by
  induction all generalizing start with
  | nil => simp
  | cons r all ih => rw [List.foldl_cons, ih, Nat.max_le, List.forall_mem_cons, and_assoc]

theorem width_le_iff : width all ≤ n ↔ ∀ r ∈ all, nameBytes r ≤ n := by
  have h := foldl_max_le_iff all 0 n
  rwa [and_iff_right (Nat.zero_le n)] at h

theorem nameBytes_le_width (h : r ∈ all) : nameBytes r ≤ width all :=
  width_le_iff.mp (Nat.le_refl _) r h

theorem length_le_width (h : r ∈ all) : r.folder.length ≤ width all :=
  Nat.le_trans (length_le_nameBytes r) (nameBytes_le_width h)

/-- Some name is as wide as the width. -/
theorem exists_nameBytes_eq_width (h : all ≠ []) : ∃ r ∈ all, nameBytes r = width all := by
  by_cases hsome : ∃ r ∈ all, nameBytes r = width all
  · exact hsome
  · have hlt : ∀ r ∈ all, nameBytes r < width all := fun r hr =>
      Nat.lt_of_le_of_ne (nameBytes_le_width hr) fun heq => hsome ⟨r, hr, heq⟩
    have hle : width all ≤ width all - 1 :=
      width_le_iff.mpr fun r hr => Nat.le_pred_of_lt (hlt r hr)
    obtain ⟨r, hr⟩ := List.exists_mem_of_ne_nil all h
    have hpos := hlt r hr
    omega

/-! ## Lines that meet in a column -/

/-- One line for each folder, in order: the name, spaces up to the column, the separator and the
folders that must not be imported. -/
structure Aligned (all : List FolderRules) (column : Nat) (lines : List String) : Prop where
  length : lines.length = all.length
  line : ∀ (i : Nat) (r : FolderRules), all[i]? = some r → ∃ spaces,
    r.folder.length + spaces = column ∧
    lines[i]? = some (r.folder ++ String.ofList (List.replicate spaces ' ') ++ "  ✗ " ++
      if r.disallowed = [] then "(none)" else ", ".intercalate r.disallowed)

theorem aligned_width (all : List FolderRules) :
    Aligned all (width all) (disallowedLines all) := by
  refine ⟨by simp [disallowedLines], fun i r hr => ⟨width all - r.folder.length, ?_, ?_⟩⟩
  · have hle := length_le_width (List.mem_of_getElem? hr)
    omega
  · rw [disallowedLines, List.getElem?_map, hr, Option.map_some]
    simp only [disallowedLine, pad, commaList, List.isEmpty_iff]

/-- Lines meet in one column at most. -/
theorem Aligned.column_unique (hne : all ≠ []) (h : Aligned all column lines)
    (h' : Aligned all column' lines) : column = column' := by
  obtain ⟨r, rest, rfl⟩ := List.exists_cons_of_ne_nil hne
  obtain ⟨spaces, hcolumn, hline⟩ := h.line 0 r rfl
  obtain ⟨spaces', hcolumn', hline'⟩ := h'.line 0 r rfl
  have hlength := congrArg String.length (Option.some.inj (hline.symm.trans hline'))
  simp only [String.length_append, String.length_ofList, List.length_replicate] at hlength
  omega

/-! ## Characters of the longest name -/

/-- The number of characters of the longest name of a folder. -/
def IsLongest (all : List FolderRules) (n : Nat) : Prop :=
  (∃ r ∈ all, r.folder.length = n) ∧ ∀ r ∈ all, r.folder.length ≤ n

theorem isLongest_width_iff : IsLongest all (width all) ↔
    ∃ r ∈ all, Text.IsAscii r.folder ∧ ∀ r' ∈ all, nameBytes r' ≤ nameBytes r := by
  constructor
  · rintro ⟨⟨r, hr, hlength⟩, -⟩
    have hbytes : nameBytes r = r.folder.length := by
      have hle := nameBytes_le_width hr
      have hge := length_le_nameBytes r
      omega
    refine ⟨r, hr, nameBytes_eq_length_iff.mp hbytes, fun r' hr' => ?_⟩
    rw [hbytes, hlength]
    exact nameBytes_le_width hr'
  · rintro ⟨r, hr, hascii, hmost⟩
    have hwidth : nameBytes r = width all :=
      Nat.le_antisymm (nameBytes_le_width hr) (width_le_iff.mpr hmost)
    refine ⟨⟨r, hr, ?_⟩, fun r' hr' => length_le_width hr'⟩
    rw [← hwidth, nameBytes_eq_length_iff.mpr hascii]

/-- **The column of the listing.** There is one line for each folder, in order, and in every line
the separator stands in one column, which is the largest number of bytes of a name. It is the number
of characters of the longest name exactly when a name with the most bytes is ASCII. -/
theorem column_iff_ascii (h : all ≠ []) :
    (∀ column, Aligned all column (disallowedLines all) ↔ column = width all) ∧
    ((∃ r ∈ all, nameBytes r = width all) ∧ ∀ r ∈ all, nameBytes r ≤ width all) ∧
    ((∃ column, IsLongest all column ∧ Aligned all column (disallowedLines all)) ↔
      ∃ r ∈ all, Text.IsAscii r.folder ∧ ∀ r' ∈ all, nameBytes r' ≤ nameBytes r) := by
  have hcolumn : ∀ column, Aligned all column (disallowedLines all) ↔ column = width all := by
    intro column
    constructor
    · intro haligned
      exact haligned.column_unique h (aligned_width all)
    · rintro rfl
      exact aligned_width all
  refine ⟨hcolumn, ⟨exists_nameBytes_eq_width h, fun r hr => nameBytes_le_width hr⟩, ?_⟩
  rw [← isLongest_width_iff]
  constructor
  · rintro ⟨column, hlongest, haligned⟩
    rwa [(hcolumn column).mp haligned] at hlongest
  · intro hlongest
    exact ⟨_, hlongest, aligned_width all⟩

/-- Rules of a folder, of which nothing counts but the name. -/
def named (folder : String) : FolderRules where
  folder := folder
  files := []
  disallowed := []
  rules := ⟨[], []⟩
  overrides := []

/-- Both names take five bytes, and one of them is ASCII. -/
theorem ascii_name_meets :
    [named "pages", named "été"] ≠ [] ∧
    ∃ column, IsLongest [named "pages", named "été"] column ∧
      Aligned [named "pages", named "été"] column
        (disallowedLines [named "pages", named "été"]) := by
  have hne : [named "pages", named "été"] ≠ [] := List.cons_ne_nil _ _
  refine ⟨hne, (column_iff_ascii hne).2.2.mpr ⟨named "pages", List.mem_cons_self, ?_, ?_⟩⟩
  · unfold Text.IsAscii
    simp [named]
  · decide

/-- A name of one character is padded to two. -/
theorem accented_name_misses :
    disallowedLines [named "é"] = ["é   ✗ (none)"] ∧
    ¬ ∃ column, IsLongest [named "é"] column ∧
      Aligned [named "é"] column (disallowedLines [named "é"]) := by
  refine ⟨by decide, ?_⟩
  rintro ⟨column, ⟨⟨r, hr, hlength⟩, -⟩, haligned⟩
  obtain rfl := List.mem_singleton.mp hr
  have hcolumn := haligned.column_unique (List.cons_ne_nil _ _) (aligned_width _)
  rw [← hlength] at hcolumn
  exact absurd hcolumn (by decide)

end Listing

end FolderFlow
