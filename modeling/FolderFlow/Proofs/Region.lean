import FolderFlow.Proofs.Marker

/-!
# Filling a region again

A region that was filled is found again with the same head, whatever the new body holds
(`Region.locate_fill`): the start marker stays the first one, since what stands behind a marker has
no part in whether one begins before it. The new region ends with the body exactly when no end
marker begins in the body. Otherwise it ends there, and what is left of the body stays in the tail
from then on.
-/

namespace FolderFlow.Region

open Marker

variable {tag : String} {text body : List Char} {r : Region}

theorem locate_eq_ok_iff : locate tag text = .ok r ↔
    ∃ first last, IsFirst .opening tag.toList text first ∧
      IsFirst .closing tag.toList first.after last ∧
      r = ⟨first.before ++ first.marker, last.before, last.marker ++ last.after⟩ := by
  simp only [← find?_eq_some_iff]
  unfold locate
  constructor
  · intro h
    split at h
    · exact absurd h (by simp)
    · rename_i first hfirst
      split at h
      · rename_i last hlast
        exact ⟨first, last, hfirst, hlast, (Except.ok.inj h).symm⟩
      · split at h <;> exact absurd h (by simp)
  · rintro ⟨first, last, hfirst, hlast, rfl⟩
    simp only [hfirst, hlast]

/-- The three parts make up the text. -/
theorem eq_of_locate (h : locate tag text = .ok r) : text = r.head ++ (r.body ++ r.tail) := by
  obtain ⟨first, last, ⟨-, rfl, -⟩, ⟨-, hafter, -⟩, rfl⟩ := locate_eq_ok_iff.mp h
  rw [hafter, List.append_assoc]

theorem not_begins_newline {kind : Kind} {tag cs : List Char} : ¬ Begins kind tag ('\n' :: cs) := by
  rintro ⟨m, rest, ⟨s, t, -, -, rfl⟩, h⟩
  simp [commentStart] at h

/-- No marker begins at the line ends around a body. -/
theorem beginsIn_lines_iff {kind : Kind} {tag rest : List Char} :
    BeginsIn kind tag ('\n' :: body ++ ['\n']) rest ↔ BeginsIn kind tag body ('\n' :: rest) := by
  rw [List.cons_append, beginsIn_cons_iff, or_iff_right not_begins_newline]
  constructor
  · rintro ⟨pre, post, hsplit, hpost, hbegins⟩
    obtain ⟨post, c, rfl⟩ := (List.eq_nil_or_concat post).resolve_left hpost
    rw [List.concat_eq_append] at hsplit hbegins
    obtain ⟨rfl, hlast⟩ := List.append_inj' (hsplit.trans (List.append_assoc pre post [c]).symm) rfl
    obtain ⟨rfl, -⟩ := List.cons.inj hlast
    rw [List.append_assoc, List.singleton_append] at hbegins
    refine ⟨pre, post, rfl, ?_, hbegins⟩
    rintro rfl
    exact not_begins_newline hbegins
  · rintro ⟨pre, post, rfl, hpost, hbegins⟩
    refine ⟨pre, post ++ ['\n'], List.append_assoc .., by simp, ?_⟩
    rwa [List.append_assoc, List.singleton_append]

/-- What an end marker behind `cs` and the first end marker have to do with each other: the first
one may begin in `cs`, and then the rest of `cs` lies behind it. -/
theorem exists_isFirst {kind : Kind} {tag m : List Char} (hm : IsMarker kind tag m)
    (cs rest : List Char) :
    ∃ kept extra o, cs = kept ++ extra ∧ IsFirst kind tag (cs ++ (m ++ rest)) o ∧ o.before = kept ∧
      o.marker ++ o.after = extra ++ (m ++ rest) ∧
      (extra = [] ↔ ¬ BeginsIn kind tag cs (m ++ rest)) := by
  have hbegins : BeginsIn kind tag (cs ++ (m ++ rest)) [] := by
    refine ⟨cs, m ++ rest, rfl, List.append_ne_nil_of_left_ne_nil hm.ne_nil _, m, rest, hm, ?_⟩
    exact List.append_nil _
  obtain ⟨o, hfind⟩ := Option.isSome_iff_exists.mp (find?_isSome hbegins)
  obtain ⟨hmarker, heq, hnone⟩ := isFirst_of_find? hfind
  rcases List.append_eq_append_iff.mp heq with ⟨post, hbefore, hrest⟩ | ⟨extra, hcs, hrest⟩
  · -- the marker behind `cs` begins no later than the first one
    obtain rfl : post = [] := by
      by_contra hne
      exact hnone ⟨cs, post, hbefore, hne, m, rest, hm, hrest.symm⟩
    rw [List.append_nil] at hbefore
    rw [List.nil_append] at hrest
    refine ⟨cs, [], o, (List.append_nil cs).symm, isFirst_of_find? hfind, hbefore, hrest.symm, ?_⟩
    refine iff_of_true rfl fun hin => hnone ?_
    rwa [hbefore, ← hrest]
  · refine ⟨o.before, extra, o, hcs, isFirst_of_find? hfind, rfl, hrest, ?_⟩
    constructor
    · rintro rfl hin
      rw [List.append_nil] at hcs
      rw [hrest, List.nil_append, ← hcs] at hnone
      exact hnone hin
    · intro hnot
      by_contra hne
      exact hnot ⟨o.before, extra, hcs, hne, o.marker, o.after, hmarker, hrest.symm⟩

/-- **Locating a filled region.** The head is found again, and the tail with what an end marker
in the body cuts off. -/
theorem locate_fill (h : locate tag text = .ok r) (body : List Char) :
    ∃ kept extra, '\n' :: body ++ ['\n'] = kept ++ extra ∧
      locate tag (r.fill body) = .ok ⟨r.head, kept, extra ++ r.tail⟩ ∧
      (extra = [] ↔ ¬ BeginsIn .closing tag.toList body ('\n' :: r.tail)) := by
  obtain ⟨first, last, ⟨hstart, -, hnone⟩, ⟨hend, -, -⟩, rfl⟩ := locate_eq_ok_iff.mp h
  obtain ⟨kept, extra, o, hsplit, hfirst, rfl, htail, hextra⟩ :=
    exists_isFirst hend ('\n' :: body ++ ['\n']) last.after
  refine ⟨o.before, extra, hsplit, ?_, hextra.trans (not_congr beginsIn_lines_iff)⟩
  refine locate_eq_ok_iff.mpr
    ⟨⟨first.before, first.marker, '\n' :: body ++ ['\n'] ++ (last.marker ++ last.after)⟩, o,
      ⟨hstart, ?_, ?_⟩, hfirst, ?_⟩
  · simp [fill]
  · exact fun hin => hnone ((beginsIn_marker_iff hstart _ _).mp hin)
  · rw [htail]

/-- Filling the region again with the same body changes the text exactly when an end marker begins
in the body. -/
theorem exists_locate_fill (h : locate tag text = .ok r) (body : List Char) :
    ∃ r', locate tag (r.fill body) = .ok r' ∧
      (r'.fill body = r.fill body ↔ ¬ BeginsIn .closing tag.toList body ('\n' :: r.tail)) := by
  obtain ⟨kept, extra, -, hlocate, hextra⟩ := locate_fill h body
  refine ⟨_, hlocate, ?_⟩
  rw [← hextra]
  simp [fill]

end FolderFlow.Region
