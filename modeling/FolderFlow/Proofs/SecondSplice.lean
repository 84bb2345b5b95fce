import FolderFlow.Proofs.MarkerPlaces
import Mathlib.Data.List.TFAE
import Mathlib.Tactic.TFAE

/-!
# Splicing a spliced text

A second splice undoes the first one exactly when no end marker begins in the first body
(`Region.splice_again`). Otherwise the region of the spliced text ends inside that body, and what
is left of the body stays in the text for good: the second splice gives a longer text than the same
splice of the first text.

What decides is the part of the first body that is cut off (`extra` in `Region.locate_fill`).
-/

namespace FolderFlow.Region

open Marker
open Text (bytes utf8Length)

variable {tag text body spliced : String} {r : Region}

/-! ## Pieces of a text -/

/-- The bytes of the text from `i` up to `j`. -/
def between (text : String) (i j : Nat) : List UInt8 :=
  ((bytes text).take j).drop i

theorem between_of_append {a b c : List Char} (h : text.toList = a ++ (b ++ c)) :
    between text (utf8Length a) (utf8Length (a ++ b)) = bytes (.ofList b) := by
  have hbytes : bytes text = bytes (.ofList a) ++ bytes (.ofList b) ++ bytes (.ofList c) := by
    rw [← Text.bytes_append, ← Text.bytes_append, ← String.ofList_append, ← String.ofList_append,
      List.append_assoc, ← h, String.ofList_toList]
  rw [between, hbytes, Text.utf8Length_append, ← Text.length_bytes_ofList,
    ← Text.length_bytes_ofList, ← List.length_append, List.take_left, List.drop_left]

/-- No end marker begins in the `length` bytes that stand behind byte `a` and a line end. -/
def ClearBehind (tag text : String) (a length : Nat) : Prop :=
  ∀ i j, Occurs .closing tag text i j → ¬ (a + 1 ≤ i ∧ i < a + 1 + length)

theorem length_bytes (s : String) : (bytes s).length = utf8Length s.toList := by
  rw [← Text.length_bytes_ofList, String.ofList_toList]

/-! ## The copy of the body -/

theorem eq_fill_of_splice (h : splice tag text body = .ok spliced) :
    ∃ r, locate tag text.toList = .ok r ∧ spliced.toList = r.fill body.toList := by
  obtain ⟨r, hlocate, hfill⟩ := bind_eq_ok_iff.mp h
  obtain rfl := Except.ok.inj hfill
  exact ⟨r, hlocate, String.toList_ofList⟩

theorem splice_of_locate (h : locate tag text.toList = .ok r) (body : String) :
    splice tag text body = .ok (.ofList (r.fill body.toList)) := by
  rw [splice, h]
  rfl

/-- The body stands behind the head and a line end. -/
theorem fill_eq (r : Region) (body : List Char) :
    r.fill body = (r.head ++ ['\n']) ++ (body ++ '\n' :: r.tail) := by
  simp [fill]

theorem utf8Length_front (r : Region) : utf8Length (r.head ++ ['\n']) = r.range.1 + 1 :=
  Text.utf8Length_append r.head ['\n']

theorem between_copy (h : spliced.toList = r.fill body.toList) :
    between spliced (r.range.1 + 1) (r.range.1 + 1 + (bytes body).length) = bytes body := by
  have hcopy := between_of_append (h.trans (fill_eq r body.toList))
  rwa [Text.utf8Length_append (r.head ++ ['\n']), utf8Length_front, ← length_bytes,
    String.ofList_toList] at hcopy

theorem clearBehind_iff (h : spliced.toList = r.fill body.toList) :
    ClearBehind tag spliced r.range.1 (bytes body).length ↔
      ¬ BeginsIn .closing tag.toList body.toList ('\n' :: r.tail) := by
  rw [beginsIn_iff (h.trans (fill_eq r body.toList)),
    Text.utf8Length_append (r.head ++ ['\n']), utf8Length_front, length_bytes]
  simp only [ClearBehind, not_exists, not_and]

/-! ## The second splice -/

/-- **Splicing again.** After a splice of `body`, the splice of another body gives what it would
have given at first exactly when the region then holds `body` on lines of its own, which is when no
end marker begins in `body` where it stands in the text. Otherwise the second splice gives a longer
text. -/
theorem splice_again (h : splice tag text body = .ok spliced) (body' : String) :
    ∃ a e, rangeIn tag text = .ok (a, e) ∧
      between spliced (a + 1) (a + 1 + (bytes body).length) = bytes body ∧
      [splice tag spliced body' = splice tag text body',
        ∃ a' e', rangeIn tag spliced = .ok (a', e') ∧
          between spliced a' e' = bytes ("\n" ++ body ++ "\n"),
        ClearBehind tag spliced a (bytes body).length].TFAE ∧
      (¬ ClearBehind tag spliced a (bytes body).length →
        ∃ longer shorter, splice tag spliced body' = .ok longer ∧
          splice tag text body' = .ok shorter ∧
          (bytes shorter).length < (bytes longer).length) := by
  obtain ⟨r, hlocate, hfill⟩ := eq_fill_of_splice h
  obtain ⟨kept, extra, hsplit, hagain, hextra⟩ := locate_fill hlocate body.toList
  rw [← hfill] at hagain
  rw [← clearBehind_iff hfill] at hextra
  have hput := splice_of_locate hlocate body'
  have hput' := splice_of_locate hagain body'
  refine ⟨r.range.1, r.range.2, congrArg (Except.map range) hlocate, between_copy hfill, ?_,
    fun hnot => ?_⟩
  · -- each of the three says that nothing is cut off from the body
    tfae_have 1 ↔ 3 := by
      rw [← hextra, hput, hput', Except.ok.injEq, String.ofList_inj]
      simp [fill]
    tfae_have 2 ↔ 3 := by
      have hrange : rangeIn tag spliced = .ok (utf8Length r.head, utf8Length (r.head ++ kept)) := by
        rw [Text.utf8Length_append]
        exact congrArg (Except.map range) hagain
      have hlines : "\n" ++ body ++ "\n" = String.ofList (kept ++ extra) := by
        rw [← hsplit]
        simp [String.ofList_append, String.ofList_cons, String.append_assoc]
      have hinside : between spliced (utf8Length r.head) (utf8Length (r.head ++ kept)) =
          bytes (.ofList kept) :=
        between_of_append (eq_of_locate hagain)
      simp only [hrange, Except.ok.injEq, Prod.mk.injEq]
      rw [← hextra, hlines]
      constructor
      · rintro ⟨_, _, ⟨rfl, rfl⟩, heq⟩
        rw [hinside] at heq
        have hkept := String.ofList_injective (Text.bytes_injective heq)
        exact List.self_eq_append_right.mp hkept
      · rintro rfl
        exact ⟨_, _, ⟨rfl, rfl⟩, by rw [hinside, List.append_nil]⟩
    tfae_finish
  · refine ⟨_, _, hput', hput, ?_⟩
    have hpos := Text.utf8Length_eq_zero_iff.not.mpr (hextra.not.mpr hnot)
    rw [Text.length_bytes_ofList, Text.length_bytes_ofList]
    simp only [fill, Text.utf8Length_append, Text.utf8Length]
    omega

/-- An end marker in the body stays in the text, and a second splice keeps it. -/
theorem copied_end_marker_stays :
    splice "T" "<!--T:START--><!--T:END-->" "<!--T:END-->" =
      .ok "<!--T:START-->\n<!--T:END-->\n<!--T:END-->" ∧
    ¬ ClearBehind "T" "<!--T:START-->\n<!--T:END-->\n<!--T:END-->" 14 12 ∧
    ∃ longer shorter,
      splice "T" "<!--T:START-->\n<!--T:END-->\n<!--T:END-->" "x" = .ok longer ∧
      splice "T" "<!--T:START--><!--T:END-->" "x" = .ok shorter ∧
      (bytes shorter).length < (bytes longer).length := by
  have hsplice : splice "T" "<!--T:START--><!--T:END-->" "<!--T:END-->" =
      .ok "<!--T:START-->\n<!--T:END-->\n<!--T:END-->" := by
    decide
  obtain ⟨a, e, hrange, -, htfae, hlonger⟩ := splice_again hsplice "x"
  have hfound : rangeIn "T" "<!--T:START--><!--T:END-->" = .ok (14, 14) := by
    decide
  obtain ⟨rfl, rfl⟩ := Prod.mk.inj (Except.ok.inj (hfound.symm.trans hrange))
  have hnot : ¬ ClearBehind "T" "<!--T:START-->\n<!--T:END-->\n<!--T:END-->" 14 12 := by
    intro hclear
    have hsame := (htfae.out 2 0).mp hclear
    exact absurd hsame (by decide)
  exact ⟨hsplice, hnot, hlonger hnot⟩

end FolderFlow.Region
