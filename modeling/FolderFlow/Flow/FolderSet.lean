/-!
# Sets of folders

Folder names without repeats, in the order in which they were first inserted. The names stand in a
list, which has the order, and once more in an index, which is asked whether a name is there. The
two halves agree in the empty table and after every insertion, so a set is a table whose halves
agree.
-/

namespace FolderFlow

/-- Both halves of a set. In which order the names of the index stand does not matter. -/
structure FolderTable where
  ordered : List String
  index : List String

namespace FolderTable

def empty : FolderTable where
  ordered := []
  index := []

def contains (t : FolderTable) (folder : String) : Bool :=
  t.index.contains folder

/-- Adds a folder to both halves, unless the index has it, and tells whether it was new. -/
def insert (t : FolderTable) (folder : String) : Bool × FolderTable :=
  if t.contains folder then (false, t)
  else (true, { ordered := t.ordered ++ [folder], index := folder :: t.index })

def size (t : FolderTable) : Nat :=
  t.ordered.length

def isEmpty (t : FolderTable) : Bool :=
  t.ordered.isEmpty

/-- No name stands in the list twice, and the index has the same names. -/
structure Agrees (t : FolderTable) : Prop where
  nodup : t.ordered.Nodup
  perm_index : t.index.Perm t.ordered

theorem agrees_empty : empty.Agrees :=
  ⟨List.nodup_nil, .refl []⟩

section

variable {t : FolderTable} {folder : String}

theorem Agrees.contains_iff (h : t.Agrees) : t.contains folder = true ↔ folder ∈ t.ordered := by
  rw [contains, List.contains_iff_mem, h.perm_index.mem_iff]

theorem insert_of_mem (h : t.Agrees) (hmem : folder ∈ t.ordered) : t.insert folder = (false, t) :=
  if_pos (h.contains_iff.mpr hmem)

theorem insert_of_notMem (h : t.Agrees) (hnew : folder ∉ t.ordered) : t.insert folder =
    (true, { ordered := t.ordered ++ [folder], index := folder :: t.index }) :=
  if_neg (mt h.contains_iff.mp hnew)

theorem Agrees.ordered_insert (h : t.Agrees) (folder : String) : (t.insert folder).2.ordered =
    if folder ∈ t.ordered then t.ordered else t.ordered ++ [folder] := by
  by_cases hmem : folder ∈ t.ordered
  · rw [insert_of_mem h hmem, if_pos hmem]
  · rw [insert_of_notMem h hmem, if_neg hmem]

/-- An insertion keeps the halves together. -/
theorem Agrees.insert (h : t.Agrees) (folder : String) : (t.insert folder).2.Agrees := by
  by_cases hmem : folder ∈ t.ordered
  · rw [insert_of_mem h hmem]
    exact h
  · rw [insert_of_notMem h hmem]
    refine ⟨?_, ?_⟩
    · rw [List.nodup_append]
      refine ⟨h.nodup, by simp, fun a ha b hb => ?_⟩
      rw [List.mem_singleton.mp hb]
      exact fun hab => hmem (hab ▸ ha)
    · exact (h.perm_index.cons folder).trans (List.perm_append_singleton folder t.ordered).symm

end

end FolderTable

structure FolderSet where
  table : FolderTable
  agrees : table.Agrees

namespace FolderSet

def empty : FolderSet :=
  ⟨.empty, FolderTable.agrees_empty⟩

/-- The members, the one that was inserted first in front. -/
def toList (s : FolderSet) : List String :=
  s.table.ordered

theorem nodup (s : FolderSet) : s.toList.Nodup :=
  s.agrees.nodup

instance : Membership String FolderSet :=
  ⟨fun s folder => folder ∈ s.toList⟩

instance (folder : String) (s : FolderSet) : Decidable (folder ∈ s) :=
  inferInstanceAs (Decidable (folder ∈ s.toList))

theorem mem_def {folder : String} {s : FolderSet} : folder ∈ s ↔ folder ∈ s.toList :=
  Iff.rfl

def contains (s : FolderSet) (folder : String) : Bool :=
  s.table.contains folder

@[simp] theorem contains_iff {s : FolderSet} {folder : String} :
    s.contains folder = true ↔ folder ∈ s :=
  s.agrees.contains_iff

def size (s : FolderSet) : Nat :=
  s.table.size

def isEmpty (s : FolderSet) : Bool :=
  s.table.isEmpty

/-- Adds a folder, and tells whether it was new. -/
def insertNew (s : FolderSet) (folder : String) : Bool × FolderSet :=
  ((s.table.insert folder).1, ⟨(s.table.insert folder).2, s.agrees.insert folder⟩)

/-- Adds a folder behind the others, unless it is there. -/
def insert (s : FolderSet) (folder : String) : FolderSet :=
  (s.insertNew folder).2

def ofList (folders : List String) : FolderSet :=
  folders.foldl insert empty

@[simp] theorem toList_empty : empty.toList = [] :=
  rfl

theorem toList_insert (s : FolderSet) (folder : String) :
    (s.insert folder).toList = if folder ∈ s then s.toList else s.toList ++ [folder] :=
  s.agrees.ordered_insert folder

@[simp] theorem mem_insert {s : FolderSet} {folder other : String} :
    other ∈ s.insert folder ↔ other ∈ s ∨ other = folder := by
  rw [mem_def, toList_insert]
  split
  · rename_i h
    constructor
    · exact Or.inl
    · rintro (hmem | rfl)
      · exact hmem
      · exact h
  · rw [List.mem_append, List.mem_singleton, mem_def]

theorem mem_foldl_insert {folders : List String} {s : FolderSet} {folder : String} :
    folder ∈ folders.foldl insert s ↔ folder ∈ s ∨ folder ∈ folders := by
  induction folders generalizing s with
  | nil => simp
  | cons f fs ih => rw [List.foldl_cons, ih, mem_insert, List.mem_cons, or_assoc]

@[simp] theorem mem_ofList {folders : List String} {folder : String} :
    folder ∈ ofList folders ↔ folder ∈ folders := by
  rw [ofList, mem_foldl_insert]
  simp [mem_def]

end FolderSet

end FolderFlow
