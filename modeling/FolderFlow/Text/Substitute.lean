/-!
# Substituting a placeholder

A pattern is cut at every occurrence of a placeholder, left to right and without overlap, and joined
again with the text that stands for it. What is put in is never searched.
-/

namespace FolderFlow.Text

/-- Whether `needle` begins somewhere in the list. -/
def occursIn (needle : List Char) : List Char → Bool
  | [] => needle.isPrefixOf []
  | c :: cs => needle.isPrefixOf (c :: cs) || occursIn needle cs

theorem occursIn_iff {needle cs : List Char} : occursIn needle cs = true ↔ needle <:+: cs := by
  induction cs with
  | nil => simp [occursIn]
  | cons c cs ih => simp [occursIn, ih, List.infix_cons_iff]

/-- The pieces of a text between the occurrences of `first :: more`, one more than there are
occurrences. -/
def pieces (first : Char) (more : List Char) : List Char → List (List Char)
  | [] => [[]]
  | c :: cs =>
    if c == first && more.isPrefixOf cs then
      [] :: pieces first more (cs.drop more.length)
    else
      match pieces first more cs with
      | [] => [[c]]
      | p :: ps => (c :: p) :: ps
termination_by cs => cs.length
decreasing_by
  · simp only [List.length_drop, List.length_cons]
    omega
  · simp

theorem pieces_ne_nil (first : Char) (more cs : List Char) : pieces first more cs ≠ [] := by
  cases cs with
  | nil => simp [pieces]
  | cons c cs =>
    rw [pieces]
    split
    · simp
    · split <;> simp

/-- `text` with every occurrence of `first :: more` replaced by `value`. -/
def substitute (first : Char) (more : List Char) (value text : String) : String :=
  String.ofList (value.toList.intercalate (pieces first more text.toList))

end FolderFlow.Text
