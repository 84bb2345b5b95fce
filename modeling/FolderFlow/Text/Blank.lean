/-!
# White space

The characters with the Unicode property White_Space, and the two questions asked of them: is a
text blank, and what is left of it once its ends are trimmed.
-/

namespace FolderFlow.Text

/-- White_Space, as Unicode lists it. U+200B, U+FEFF, U+180E and U+001F are not in it. -/
def isWhiteSpace (c : Char) : Bool :=
  let n := c.toNat
  (0x09 ≤ n && n ≤ 0x0D) || n == 0x20 || n == 0x85 || n == 0xA0 || n == 0x1680 ||
    (0x2000 ≤ n && n ≤ 0x200A) || n == 0x2028 || n == 0x2029 || n == 0x202F || n == 0x205F ||
    n == 0x3000

theorem isWhiteSpace_of_isWhitespace {c : Char} (h : c.isWhitespace = true) :
    isWhiteSpace c = true := by
  simp only [Char.isWhitespace, Bool.or_eq_true, decide_eq_true_eq] at h
  rcases h with ((rfl | rfl) | rfl) | rfl <;> rfl

/-- A text is blank when it holds white space only; the empty text is blank. -/
def IsBlank (s : String) : Prop :=
  ∀ c ∈ s.toList, isWhiteSpace c = true

instance (s : String) : Decidable (IsBlank s) :=
  List.decidableBAll (isWhiteSpace · = true) s.toList

/-! ## Trimming -/

def trimStart (cs : List Char) : List Char :=
  cs.dropWhile isWhiteSpace

def trimEnd (cs : List Char) : List Char :=
  (cs.reverse.dropWhile isWhiteSpace).reverse

/-- The text without the white space at its ends. -/
def trim (s : String) : String :=
  String.ofList (trimEnd (trimStart s.toList))

end FolderFlow.Text
