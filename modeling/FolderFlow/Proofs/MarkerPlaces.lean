import FolderFlow.Proofs.Except
import FolderFlow.Proofs.Splices

/-!
# The places of markers

A marker occurs in a text from one byte to another (`Marker.Occurs`); this speaks of the text alone,
and not of how a marker is looked for. `Region.rangeIn_exact`: the region that a tag marks begins
where the first start marker ends, and ends where the first end marker begins from there on. When
there is no such region, the fault says which markers there are.

A search that passes over `front` finds the first marker that begins behind it
(`Marker.firstFrom_iff`), or there is none (`Marker.find?_eq_none_iff`).
-/

namespace FolderFlow

open Text (bytes utf8Length)

/-! ## Parts of a text in bytes -/

namespace Text

theorem utf8Length_eq_zero_iff {cs : List Char} : utf8Length cs = 0 ↔ cs = [] := by
  cases cs with
  | nil => simp [utf8Length]
  | cons c cs =>
    have hpos := c.utf8Size_pos
    simp only [utf8Length, reduceCtorEq, iff_false]
    omega

/-- Of two ways to cut a text, the one that cuts at an earlier byte leaves what lies between in the
second part. -/
theorem exists_between {a b a' b' : List Char} (h : a ++ b = a' ++ b')
    (hle : utf8Length a ≤ utf8Length a') : ∃ between, a' = a ++ between ∧ b = between ++ b' := by
  rcases List.append_eq_append_iff.mp h with ⟨between, ha, hb⟩ | ⟨between, ha, hb⟩
  · exact ⟨between, ha, hb⟩
  · rw [ha, utf8Length_append] at hle
    obtain rfl := utf8Length_eq_zero_iff.mp (by omega : utf8Length between = 0)
    exact ⟨[], by rw [ha, List.append_nil, List.append_nil], hb.symm⟩

/-- Where a text can be cut, a character begins, or the text ends. -/
theorem isValid_of_append {s : String} {a b : List Char} (h : s.toList = a ++ b) :
    String.Pos.Raw.IsValid s ⟨utf8Length a⟩ := by
  refine String.Pos.Raw.isValid_iff_exists_append.mpr ⟨.ofList a, .ofList b, ?_, ?_⟩
  · rw [← String.ofList_append, ← h, String.ofList_toList]
  · rw [← length_bytes_ofList]
    rfl

end Text

/-! ## Occurrences -/

namespace Marker

/-- A marker stands in the text from byte `i` up to byte `j`. -/
def Occurs (kind : Kind) (tag text : String) (i j : Nat) : Prop :=
  ∃ before m after, text.toList = before ++ (m ++ after) ∧ IsMarker kind tag.toList m ∧
    i = utf8Length before ∧ j = utf8Length (before ++ m)

/-- The first marker of the kind that begins at byte `a` or later stands from `i` up to `j`. -/
def FirstFrom (kind : Kind) (tag text : String) (a i j : Nat) : Prop :=
  a ≤ i ∧ Occurs kind tag text i j ∧ ∀ i' j', a ≤ i' → Occurs kind tag text i' j' → i ≤ i'

variable {kind : Kind} {tag text : String} {front cs : List Char} {i j : Nat}

theorem IsFirst.eq_append {label : List Char} {o : Occurrence} (h : IsFirst kind label cs o) :
    cs = o.before ++ o.marker ++ o.after := by
  rw [List.append_assoc]
  exact h.2.1

/-- A marker begins inside a part of the text exactly when one occurs at a byte of that part. -/
theorem beginsIn_iff {rest : List Char} (htext : text.toList = front ++ (cs ++ rest)) :
    BeginsIn kind tag.toList cs rest ↔ ∃ i j, Occurs kind tag text i j ∧
      utf8Length front ≤ i ∧ i < utf8Length (front ++ cs) := by
  constructor
  · rintro ⟨pre, post, rfl, hpost, m, after, hm, hbegins⟩
    have hpos := Text.utf8Length_eq_zero_iff.not.mpr hpost
    refine ⟨_, _, ⟨front ++ pre, m, after, ?_, hm, rfl, rfl⟩, ?_, ?_⟩
    · rw [htext, ← hbegins]
      simp
    · rw [Text.utf8Length_append]
      omega
    · simp only [Text.utf8Length_append]
      omega
  · rintro ⟨i, j, ⟨before, m, after, heq, hm, rfl, -⟩, hfront, hlt⟩
    obtain ⟨pre, rfl, hcs⟩ := Text.exists_between (htext.symm.trans heq) hfront
    rw [Text.utf8Length_append, Text.utf8Length_append] at hlt
    obtain ⟨post, rfl, hpost⟩ := Text.exists_between hcs.symm (by omega)
    refine ⟨pre, post, rfl, ?_, m, after, hm, hpost.symm⟩
    rintro rfl
    rw [List.append_nil] at hlt
    exact Nat.lt_irrefl _ hlt

theorem firstFrom_iff (htext : text.toList = front ++ cs) :
    FirstFrom kind tag text (utf8Length front) i j ↔ ∃ o, IsFirst kind tag.toList cs o ∧
      i = utf8Length (front ++ o.before) ∧ j = utf8Length (front ++ o.before ++ o.marker) := by
  constructor
  · rintro ⟨hi, ⟨before, m, after, heq, hm, rfl, rfl⟩, hleast⟩
    obtain ⟨between, rfl, rfl⟩ := Text.exists_between (htext.symm.trans heq) hi
    refine ⟨⟨between, m, after⟩, ⟨hm, rfl, fun hbegins => ?_⟩, rfl, rfl⟩
    obtain ⟨i', j', hoccurs, hfront, hlt⟩ := (beginsIn_iff htext).mp hbegins
    exact Nat.not_lt.mpr (hleast i' j' hfront hoccurs) hlt
  · rintro ⟨o, ⟨hm, rfl, hnone⟩, rfl, rfl⟩
    refine ⟨by rw [Text.utf8Length_append]; omega, ?_, fun i' j' hfront hoccurs => ?_⟩
    · exact ⟨front ++ o.before, o.marker, o.after, by rw [htext, List.append_assoc], hm, rfl, rfl⟩
    · by_contra hlt
      exact hnone ((beginsIn_iff htext).mpr ⟨i', j', hoccurs, hfront, Nat.not_le.mp hlt⟩)

theorem find?_eq_none_iff (htext : text.toList = front ++ cs) :
    find? kind tag.toList cs = none ↔
      ∀ i j, utf8Length front ≤ i → ¬ Occurs kind tag text i j := by
  constructor
  · rintro hnone i j hi ⟨before, m, after, heq, hm, rfl, -⟩
    obtain ⟨between, rfl, hcs⟩ := Text.exists_between (htext.symm.trans heq) hi
    have hbegins : BeginsIn kind tag.toList cs [] := by
      refine ⟨between, m ++ after, hcs, ?_, m, after, hm, List.append_nil _⟩
      exact List.append_ne_nil_of_left_ne_nil hm.ne_nil _
    have hsome := find?_isSome hbegins
    rw [hnone] at hsome
    exact absurd hsome (by simp)
  · intro hnone
    refine Option.eq_none_iff_forall_ne_some.mpr fun o ho => ?_
    obtain ⟨hi, hoccurs, -⟩ :=
      (firstFrom_iff htext).mpr ⟨o, find?_eq_some_iff.mp ho, rfl, rfl⟩
    exact hnone _ _ hi hoccurs

/-- The first marker of all. -/
theorem firstFrom_zero_iff : FirstFrom kind tag text 0 i j ↔
    ∃ o, IsFirst kind tag.toList text.toList o ∧
      i = utf8Length o.before ∧ j = utf8Length (o.before ++ o.marker) := by
  have htext : text.toList = [] ++ text.toList := rfl
  exact firstFrom_iff htext

theorem find?_text_eq_none_iff :
    find? kind tag.toList text.toList = none ↔ ∀ i j, ¬ Occurs kind tag text i j := by
  have htext : text.toList = [] ++ text.toList := rfl
  rw [find?_eq_none_iff htext]
  exact forall₂_congr fun i _ => imp_iff_right (Nat.zero_le i)

end Marker

/-! ## Where the region lies -/

namespace Region

open Marker

variable {tag text : String} {a e : Nat} {fault : MarkerError}

/-- The bytes at which the region that a tag marks begins and ends. -/
def rangeIn (tag text : String) : Except MarkerError (Nat × Nat) :=
  range <$> locate tag text.toList

theorem rangeIn_eq_ok_iff : rangeIn tag text = .ok (a, e) ↔
    (∃ i, FirstFrom .opening tag text 0 i a) ∧ ∃ j, FirstFrom .closing tag text a e j := by
  rw [rangeIn, map_eq_ok_iff]
  constructor
  · rintro ⟨r, hlocate, hrange⟩
    obtain ⟨first, last, hfirst, hlast, rfl⟩ := locate_eq_ok_iff.mp hlocate
    obtain ⟨rfl, rfl⟩ := Prod.mk.inj hrange
    refine ⟨⟨_, firstFrom_zero_iff.mpr ⟨first, hfirst, rfl, rfl⟩⟩, _,
      (firstFrom_iff hfirst.eq_append).mpr ⟨last, hlast, ?_, rfl⟩⟩
    exact (Text.utf8Length_append _ _).symm
  · rintro ⟨⟨i, hstart⟩, j, hend⟩
    obtain ⟨first, hfirst, -, rfl⟩ := firstFrom_zero_iff.mp hstart
    obtain ⟨last, hlast, rfl, -⟩ := (firstFrom_iff hfirst.eq_append).mp hend
    refine ⟨_, locate_eq_ok_iff.mpr ⟨first, last, hfirst, hlast, rfl⟩, ?_⟩
    rw [range, Text.utf8Length_append _ last.before]

/-! ## Why there is none -/

theorem locate_eq_error_iff {text : List Char} : locate tag text = .error fault ↔
    (find? .opening tag.toList text = none ∧ fault = .missingStart tag) ∨
    (∃ first, find? .opening tag.toList text = some first ∧
      find? .closing tag.toList first.after = none) ∧
      fault = if (find? .closing tag.toList text).isSome then .outOfOrder tag
        else .missingEnd tag := by
  unfold locate
  cases find? .opening tag.toList text with
  | none => simp [@eq_comm _ fault]
  | some first =>
    simp only [reduceCtorEq, false_and, false_or, Option.some.injEq, exists_eq_left']
    cases find? .closing tag.toList first.after with
    | none =>
      cases find? .closing tag.toList text with
      | none => simp [@eq_comm _ fault]
      | some other => simp [@eq_comm _ fault]
    | some last => simp

/-- There is a start marker, and no end marker from there on. -/
theorem exists_unclosed_iff : (∃ first, find? .opening tag.toList text.toList = some first ∧
      find? .closing tag.toList first.after = none) ↔
    ∃ i a, FirstFrom .opening tag text 0 i a ∧
      ∀ i' j', a ≤ i' → ¬ Occurs .closing tag text i' j' := by
  constructor
  · rintro ⟨first, hfirst, hnone⟩
    have hisFirst := find?_eq_some_iff.mp hfirst
    refine ⟨_, _, firstFrom_zero_iff.mpr ⟨first, hisFirst, rfl, rfl⟩, ?_⟩
    exact (find?_eq_none_iff hisFirst.eq_append).mp hnone
  · rintro ⟨i, a, hstart, hnone⟩
    obtain ⟨first, hfirst, -, rfl⟩ := firstFrom_zero_iff.mp hstart
    exact ⟨first, find?_eq_some_iff.mpr hfirst, (find?_eq_none_iff hfirst.eq_append).mpr hnone⟩

theorem rangeIn_eq_error_iff : rangeIn tag text = .error fault ↔
    ((∀ i j, ¬ Occurs .opening tag text i j) ∧ fault = .missingStart tag) ∨
    (∃ i a, FirstFrom .opening tag text 0 i a ∧
      ∀ i' j', a ≤ i' → ¬ Occurs .closing tag text i' j') ∧
      (((∃ i j, Occurs .closing tag text i j) ∧ fault = .outOfOrder tag) ∨
        (∀ i j, ¬ Occurs .closing tag text i j) ∧ fault = .missingEnd tag) := by
  rw [rangeIn, map_eq_error_iff, locate_eq_error_iff, find?_text_eq_none_iff,
    ← exists_unclosed_iff]
  refine or_congr_right (and_congr_right fun _ => ?_)
  cases hclosing : find? .closing tag.toList text.toList with
  | none =>
    have hnone := find?_text_eq_none_iff.mp hclosing
    simp [hnone]
  | some other =>
    have hsome : ¬ ∀ i j, ¬ Occurs .closing tag text i j := by
      rw [← find?_text_eq_none_iff, hclosing]
      exact Option.some_ne_none other
    rw [or_iff_left fun h => hsome h.1, and_iff_right (by simpa using hsome)]
    rfl

/-! ## Cutting the text -/

theorem exists_locate_of_rangeIn (h : rangeIn tag text = .ok (a, e)) :
    ∃ r, locate tag text.toList = .ok r ∧ r.range.1 = a ∧ r.range.2 = e := by
  obtain ⟨r, hlocate, hrange⟩ := map_eq_ok_iff.mp h
  exact ⟨r, hlocate, congrArg Prod.fst hrange, congrArg Prod.snd hrange⟩

theorem bounds_of_rangeIn (h : rangeIn tag text = .ok (a, e)) :
    a ≤ e ∧ e ≤ (bytes text).length ∧
      String.Pos.Raw.IsValid text ⟨a⟩ ∧ String.Pos.Raw.IsValid text ⟨e⟩ := by
  obtain ⟨r, hlocate, rfl, rfl⟩ := exists_locate_of_rangeIn h
  have htext := eq_of_locate hlocate
  have htail : text.toList = (r.head ++ r.body) ++ r.tail := by
    rw [htext, List.append_assoc]
  refine ⟨Nat.le_add_right _ _, ?_, Text.isValid_of_append htext, ?_⟩
  · rw [← String.ofList_toList (s := text), Text.length_bytes_ofList, htail,
      Text.utf8Length_append, Text.utf8Length_append]
    exact Nat.le_add_right _ _
  · rw [range, ← Text.utf8Length_append]
    exact Text.isValid_of_append htail

/-- A splice puts the new body between what stands before the region and what stands behind it. -/
theorem bytes_splice (h : rangeIn tag text = .ok (a, e)) (body : String) :
    ∃ t, splice tag text body = .ok t ∧
      bytes t = (bytes text).take a ++ bytes ("\n" ++ body ++ "\n") ++ (bytes text).drop e := by
  obtain ⟨r, hlocate, rfl, rfl⟩ := exists_locate_of_rangeIn h
  refine ⟨String.ofList (r.fill body.toList), by rw [splice, hlocate]; rfl, ?_⟩
  rw [take_range hlocate, drop_range hlocate, ← Text.bytes_append, ← Text.bytes_append]
  congr 1
  simp [fill, String.ofList_append, String.ofList_cons, String.append_assoc]

/-- **The marked region.** The region of a text lies from `a` to `e` exactly when the first start
marker ends at `a` and the first end marker from there on begins at `e`. Where there is no such
region, the start marker is missing, or the end marker is, or all end markers begin too early. The
region lies between places where a character begins or the text ends, so that the text can be cut
there and the body put in between. -/
theorem rangeIn_exact (tag text : String) :
    (∀ a e, rangeIn tag text = .ok (a, e) ↔
      (∃ i, FirstFrom .opening tag text 0 i a) ∧ ∃ j, FirstFrom .closing tag text a e j) ∧
    (rangeIn tag text = .error (.missingStart tag) ↔ ∀ i j, ¬ Occurs .opening tag text i j) ∧
    (rangeIn tag text = .error (.outOfOrder tag) ↔
      (∃ i a, FirstFrom .opening tag text 0 i a ∧
        ∀ i' j', a ≤ i' → ¬ Occurs .closing tag text i' j') ∧
      ∃ i j, Occurs .closing tag text i j) ∧
    (rangeIn tag text = .error (.missingEnd tag) ↔
      (∃ i a, FirstFrom .opening tag text 0 i a ∧
        ∀ i' j', a ≤ i' → ¬ Occurs .closing tag text i' j') ∧
      ∀ i j, ¬ Occurs .closing tag text i j) ∧
    ∀ a e, rangeIn tag text = .ok (a, e) →
      a ≤ e ∧ e ≤ (bytes text).length ∧
      String.Pos.Raw.IsValid text ⟨a⟩ ∧ String.Pos.Raw.IsValid text ⟨e⟩ ∧
      ∀ body, ∃ t, splice tag text body = .ok t ∧
        bytes t = (bytes text).take a ++ bytes ("\n" ++ body ++ "\n") ++ (bytes text).drop e := by
  refine ⟨fun a e => rangeIn_eq_ok_iff, ?_, ?_, ?_, fun a e h => ?_⟩
  · simp [rangeIn_eq_error_iff]
  · simp [rangeIn_eq_error_iff]
  · simp [rangeIn_eq_error_iff]
  · obtain ⟨hle, hend, hvalid, hvalid'⟩ := bounds_of_rangeIn h
    exact ⟨hle, hend, hvalid, hvalid', bytes_splice h⟩

end Region

end FolderFlow
