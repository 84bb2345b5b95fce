/-!
# The order of texts

Texts are ordered by their code points, first difference first, which is also the order of their
bytes in UTF-8.
-/

namespace FolderFlow.Text

def atMostChars : List Char → List Char → Bool
  | [], _ => true
  | _ :: _, [] => false
  | a :: as, b :: bs => a.toNat < b.toNat || (a.toNat == b.toNat && atMostChars as bs)

/-- `a` comes before `b` or is `b`. -/
def atMost (a b : String) : Bool :=
  atMostChars a.toList b.toList

theorem atMostChars_refl (cs : List Char) : atMostChars cs cs = true := by
  induction cs with
  | nil => rfl
  | cons c cs ih => simp [atMostChars, ih]

theorem atMostChars_antisymm {a b : List Char} (hab : atMostChars a b = true)
    (hba : atMostChars b a = true) : a = b := by
  induction a generalizing b with
  | nil => cases b with
    | nil => rfl
    | cons => simp [atMostChars] at hba
  | cons x xs ih => cases b with
    | nil => simp [atMostChars] at hab
    | cons y ys =>
      simp only [atMostChars, Bool.or_eq_true, decide_eq_true_eq, Bool.and_eq_true,
        beq_iff_eq] at hab hba
      rcases hab with hab | ⟨hab, hs⟩ <;> rcases hba with hba | ⟨hba, ht⟩
      · omega
      · omega
      · omega
      · rw [Char.toNat_inj.mp hab, ih hs ht]

theorem atMostChars_trans {a b c : List Char} (hab : atMostChars a b = true)
    (hbc : atMostChars b c = true) : atMostChars a c = true := by
  induction a generalizing b c with
  | nil => rfl
  | cons x xs ih => cases b with
    | nil => simp [atMostChars] at hab
    | cons y ys => cases c with
      | nil => simp [atMostChars] at hbc
      | cons z zs =>
        simp only [atMostChars, Bool.or_eq_true, decide_eq_true_eq, Bool.and_eq_true,
          beq_iff_eq] at hab hbc ⊢
        rcases hab with hab | ⟨hab, hs⟩ <;> rcases hbc with hbc | ⟨hbc, ht⟩
        · omega
        · omega
        · omega
        · exact Or.inr ⟨by omega, ih hs ht⟩

theorem atMostChars_total (a b : List Char) :
    atMostChars a b = true ∨ atMostChars b a = true := by
  induction a generalizing b with
  | nil => exact Or.inl rfl
  | cons x xs ih => cases b with
    | nil => exact Or.inr rfl
    | cons y ys =>
      simp only [atMostChars, Bool.or_eq_true, decide_eq_true_eq, Bool.and_eq_true, beq_iff_eq]
      rcases Nat.lt_trichotomy x.toNat y.toNat with h | h | h
      · exact Or.inl (Or.inl h)
      · exact (ih ys).imp (fun hs => Or.inr ⟨h, hs⟩) (fun hs => Or.inr ⟨h.symm, hs⟩)
      · exact Or.inr (Or.inl h)

end FolderFlow.Text
