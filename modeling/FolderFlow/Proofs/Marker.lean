import FolderFlow.Docs.Marker
import Mathlib.Data.List.TakeWhile

/-!
# Markers in a text

A marker is the opening of a comment, white space, the label, white space and the closing of the
comment. No marker is the beginning of another one (`markerAt?_eq_some_iff`), so it is clear where a
marker that begins at a place ends, and `find?` gives the first place where one begins
(`find?_eq_some_iff`).

`prefix_of_earlier`: a marker that begins before another of its kind ends where that one ends, or
before. The tag may hold openings and closings of comments itself; two markers can overlap, but none
reaches beyond a later one. So what stands behind a marker has no part in whether one begins before
it (`beginsIn_marker_iff`).
-/

namespace FolderFlow.Marker

def AllWhite (cs : List Char) : Prop :=
  ∀ c ∈ cs, Text.isWhiteSpace c = true

/-- The texts that are markers of a kind. -/
def IsMarker (kind : Kind) (tag m : List Char) : Prop :=
  ∃ s t, AllWhite s ∧ AllWhite t ∧
    m = commentStart ++ (s ++ (label kind tag ++ (t ++ commentEnd)))

/-- A marker begins at the front of a text. -/
def Begins (kind : Kind) (tag cs : List Char) : Prop :=
  ∃ m rest, IsMarker kind tag m ∧ cs = m ++ rest

/-- A marker begins inside `cs` when `rest` stands behind it. -/
def BeginsIn (kind : Kind) (tag cs rest : List Char) : Prop :=
  ∃ pre post, cs = pre ++ post ∧ post ≠ [] ∧ Begins kind tag (post ++ rest)

variable {kind : Kind} {tag m m' cs rest rest' : List Char}

/-! ## White space before a fixed text -/

/-- The text holds something that is not white space. -/
def HasInk (l : List Char) : Prop :=
  ∃ c ∈ l, Text.isWhiteSpace c = false

theorem hasInk_label (kind : Kind) (tag : List Char) : HasInk (label kind tag) :=
  ⟨':', List.mem_append_right _ List.mem_cons_self, rfl⟩

theorem hasInk_commentEnd : HasInk commentEnd :=
  ⟨'-', List.mem_cons_self, rfl⟩

theorem takeWhile_append_of_hasInk {l : List Char} (hl : HasInk l) (rest : List Char) :
    (l ++ rest).takeWhile Text.isWhiteSpace = l.takeWhile Text.isWhiteSpace := by
  rw [List.takeWhile_append, if_neg]
  intro hlen
  obtain ⟨c, hc, hink⟩ := hl
  have hall := List.takeWhile_eq_self_iff.mp
    ((List.takeWhile_prefix (p := Text.isWhiteSpace) (l := l)).eq_of_length hlen)
  exact absurd (hall c hc) (by simp [hink])

/-- White space before a fixed text with ink in it can be cut off in one way only. -/
theorem white_unique {s s' l : List Char} (hs : AllWhite s) (hs' : AllWhite s') (hl : HasInk l)
    (h : s ++ (l ++ rest) = s' ++ (l ++ rest')) : s = s' ∧ rest = rest' := by
  have hwhite := congrArg (List.takeWhile Text.isWhiteSpace) h
  rw [List.takeWhile_append_of_pos hs, List.takeWhile_append_of_pos hs',
    takeWhile_append_of_hasInk hl, takeWhile_append_of_hasInk hl] at hwhite
  obtain rfl := List.append_cancel_right hwhite
  exact ⟨rfl, List.append_cancel_left (List.append_cancel_left h)⟩

/-! ## Reading a marker -/

theorem after?_eq_some_iff {p : List Char} : after? p cs = some rest ↔ cs = p ++ rest := by
  unfold after?
  split
  · rename_i hp
    obtain ⟨t, rfl⟩ := List.isPrefixOf_iff_prefix.mp hp
    rw [List.drop_left, Option.some.injEq, List.append_cancel_left_eq]
  · rename_i hp
    refine ⟨fun h => absurd h (by simp), ?_⟩
    rintro rfl
    exact absurd (List.isPrefixOf_iff_prefix.mpr (List.prefix_append p rest)) hp

variable {next : List Char → Option (List Char)}

theorem spaced_sound (h : spaced next cs = some rest) :
    ∃ s u, AllWhite s ∧ cs = s ++ u ∧ next u = some rest := by
  induction cs with
  | nil => exact ⟨[], [], by simp [AllWhite], rfl, h⟩
  | cons c cs ih =>
    rw [spaced] at h
    split at h
    · rename_i found hnext
      exact ⟨[], c :: cs, by simp [AllWhite], rfl, hnext.trans h⟩
    · split at h
      · rename_i hc
        obtain ⟨s, u, hs, rfl, hu⟩ := ih h
        exact ⟨c :: s, u, List.forall_mem_cons.mpr ⟨hc, hs⟩, rfl, hu⟩
      · exact absurd h (by simp)

theorem spaced_isSome {s u : List Char} (hs : AllWhite s) (hu : (next u).isSome) :
    (spaced next (s ++ u)).isSome := by
  induction s with
  | nil =>
    cases u with
    | nil => exact hu
    | cons c u =>
      obtain ⟨found, hfound⟩ := Option.isSome_iff_exists.mp hu
      rw [List.nil_append, spaced, hfound]
      rfl
  | cons c s ih =>
    obtain ⟨hc, hs⟩ := List.forall_mem_cons.mp hs
    rw [List.cons_append, spaced]
    split
    · rfl
    · rw [if_pos hc]
      exact ih hs

/-- When `next` asks for a fixed text with ink first, it makes no difference that the shortest white
space is tried first. -/
theorem spaced_eq_some_iff {l : List Char} (hl : HasInk l) (Then : List Char → List Char → Prop)
    (hnext : ∀ u r, next u = some r ↔ ∃ v, u = l ++ v ∧ Then v r)
    (hthen : ∀ v r r', Then v r → Then v r' → r = r') :
    spaced next cs = some rest ↔ ∃ s v, AllWhite s ∧ cs = s ++ (l ++ v) ∧ Then v rest := by
  constructor
  · intro h
    obtain ⟨s, u, hs, rfl, hu⟩ := spaced_sound h
    obtain ⟨v, rfl, hv⟩ := (hnext u rest).mp hu
    exact ⟨s, v, hs, rfl, hv⟩
  · rintro ⟨s, v, hs, rfl, hv⟩
    have hu : next (l ++ v) = some rest := (hnext _ _).mpr ⟨v, rfl, hv⟩
    obtain ⟨r, hr⟩ := Option.isSome_iff_exists.mp
      (spaced_isSome hs (Option.isSome_iff_exists.mpr ⟨rest, hu⟩))
    obtain ⟨s', u', hs', heq, hu'⟩ := spaced_sound hr
    obtain ⟨v', rfl, hv'⟩ := (hnext u' r).mp hu'
    obtain ⟨-, rfl⟩ := white_unique hs hs' hl heq
    rw [hr, hthen v r rest hv' hv]

theorem spaced_commentEnd_iff : spaced (after? commentEnd) cs = some rest ↔
    ∃ t, AllWhite t ∧ cs = t ++ (commentEnd ++ rest) := by
  rw [spaced_eq_some_iff hasInk_commentEnd (fun v r => v = r)
    (fun u r => by rw [after?_eq_some_iff]; simp) (fun v r r' h h' => h.symm.trans h')]
  simp

theorem closing_unique {v : List Char} (h : ∃ t, AllWhite t ∧ v = t ++ (commentEnd ++ rest))
    (h' : ∃ t, AllWhite t ∧ v = t ++ (commentEnd ++ rest')) : rest = rest' := by
  obtain ⟨t, ht, rfl⟩ := h
  obtain ⟨t', ht', heq⟩ := h'
  exact (white_unique ht ht' hasInk_commentEnd heq).2

theorem markerAt?_eq_some_iff : markerAt? kind tag cs = some rest ↔
    ∃ m, IsMarker kind tag m ∧ cs = m ++ rest := by
  have hlabel : ∀ u r, ((after? (label kind tag) u).bind (spaced (after? commentEnd))) = some r ↔
      ∃ v, u = label kind tag ++ v ∧ ∃ t, AllWhite t ∧ v = t ++ (commentEnd ++ r) := by
    intro u r
    simp only [Option.bind_eq_some_iff, after?_eq_some_iff, spaced_commentEnd_iff]
  unfold markerAt?
  simp only [Option.bind_eq_some_iff, after?_eq_some_iff,
    spaced_eq_some_iff (hasInk_label kind tag) _ hlabel fun _ _ _ => closing_unique]
  constructor
  · rintro ⟨u, rfl, s, v, hs, rfl, t, ht, rfl⟩
    exact ⟨_, ⟨s, t, hs, ht, rfl⟩, by simp⟩
  · rintro ⟨m, ⟨s, t, hs, ht, rfl⟩, rfl⟩
    exact ⟨_, by simp only [List.append_assoc], s, _, hs, rfl, t, ht, rfl⟩

theorem IsMarker.ne_nil (hm : IsMarker kind tag m) : m ≠ [] := by
  obtain ⟨s, t, -, -, rfl⟩ := hm
  simp [commentStart]

/-- No marker is the beginning of another one. -/
theorem IsMarker.append_inj (hm : IsMarker kind tag m) (hm' : IsMarker kind tag m')
    (h : m ++ rest = m' ++ rest') : m = m' ∧ rest = rest' := by
  have hread : markerAt? kind tag (m ++ rest) = some rest :=
    markerAt?_eq_some_iff.mpr ⟨m, hm, rfl⟩
  have hread' : markerAt? kind tag (m ++ rest) = some rest' :=
    markerAt?_eq_some_iff.mpr ⟨m', hm', h⟩
  obtain rfl := Option.some.inj (hread.symm.trans hread')
  exact ⟨List.append_cancel_right h, rfl⟩

/-! ## The first marker -/

theorem not_beginsIn_nil : ¬ BeginsIn kind tag [] rest := by
  rintro ⟨pre, post, h, hpost, -⟩
  exact hpost (List.append_eq_nil_iff.mp h.symm).2

theorem beginsIn_cons_iff {c : Char} : BeginsIn kind tag (c :: cs) rest ↔
    Begins kind tag (c :: (cs ++ rest)) ∨ BeginsIn kind tag cs rest := by
  constructor
  · rintro ⟨pre, post, h, hpost, hbegins⟩
    cases pre with
    | nil =>
      rw [List.nil_append] at h
      subst h
      exact Or.inl hbegins
    | cons d pre =>
      obtain ⟨rfl, rfl⟩ := List.cons.inj h
      exact Or.inr ⟨pre, post, rfl, hpost, hbegins⟩
  · rintro (hbegins | ⟨pre, post, rfl, hpost, hbegins⟩)
    · exact ⟨[], c :: cs, rfl, by simp, hbegins⟩
    · exact ⟨c :: pre, post, rfl, hpost, hbegins⟩

theorem mem_of_beginsIn (h : BeginsIn kind tag cs rest) : '<' ∈ cs := by
  obtain ⟨pre, post, rfl, hpost, m, behind, ⟨s, t, -, -, rfl⟩, heq⟩ := h
  obtain ⟨c, post, rfl⟩ := List.exists_cons_of_ne_nil hpost
  obtain ⟨rfl, -⟩ := List.cons.inj heq
  exact List.mem_append_right pre List.mem_cons_self

/-- `o` cuts a text at a marker, and no marker begins before. -/
def IsFirst (kind : Kind) (tag cs : List Char) (o : Occurrence) : Prop :=
  IsMarker kind tag o.marker ∧ cs = o.before ++ (o.marker ++ o.after) ∧
    ¬ BeginsIn kind tag o.before (o.marker ++ o.after)

theorem IsFirst.unique {o o' : Occurrence} (h : IsFirst kind tag cs o)
    (h' : IsFirst kind tag cs o') : o = o' := by
  obtain ⟨before, m, after⟩ := o
  obtain ⟨before', m', after'⟩ := o'
  obtain ⟨hm, rfl, hnone⟩ := h
  obtain ⟨hm', heq, hnone'⟩ := h'
  simp only at hm hnone hm' heq hnone'
  -- the marker of the one would begin before that of the other
  have hbefore : before = before' := by
    rcases List.append_eq_append_iff.mp heq with ⟨post, rfl, htail⟩ | ⟨post, rfl, htail⟩
    · by_contra hne
      exact hnone' ⟨before, post, rfl, by simpa using hne, m, after, hm, htail.symm⟩
    · by_contra hne
      exact hnone ⟨before', post, rfl, by simpa using Ne.symm hne, m', after', hm', htail.symm⟩
  subst hbefore
  obtain ⟨rfl, rfl⟩ := hm.append_inj hm' (List.append_cancel_left heq)
  rfl

theorem isFirst_of_find? {o : Occurrence} (h : find? kind tag cs = some o) :
    IsFirst kind tag cs o := by
  induction cs generalizing o with
  | nil => exact absurd h (by simp [find?])
  | cons c cs ih =>
    rw [find?] at h
    split at h
    · rename_i after hat
      obtain ⟨m, hm, heq⟩ := markerAt?_eq_some_iff.mp hat
      obtain rfl := Option.some.inj h
      have hmark : (c :: cs).take ((c :: cs).length - after.length) = m := by
        rw [heq, List.length_append, Nat.add_sub_cancel, List.take_left]
      rw [hmark]
      exact ⟨hm, heq, not_beginsIn_nil⟩
    · rename_i hnot
      obtain ⟨o', ho', rfl⟩ := Option.map_eq_some_iff.mp h
      obtain ⟨hm, rfl, hnone⟩ := ih ho'
      refine ⟨hm, rfl, fun hin => ?_⟩
      rcases beginsIn_cons_iff.mp hin with ⟨m, rest, hmarker, heq⟩ | hin
      · rw [markerAt?_eq_some_iff.mpr ⟨m, hmarker, heq⟩] at hnot
        exact absurd hnot (by simp)
      · exact hnone hin

theorem find?_isSome (h : BeginsIn kind tag cs []) : (find? kind tag cs).isSome := by
  induction cs with
  | nil => exact absurd h not_beginsIn_nil
  | cons c cs ih =>
    rw [find?]
    split
    · rfl
    · rename_i hnot
      rw [Option.isSome_map]
      rcases beginsIn_cons_iff.mp h with ⟨m, rest, hmarker, heq⟩ | hin
      · rw [List.append_nil] at heq
        rw [markerAt?_eq_some_iff.mpr ⟨m, hmarker, heq⟩] at hnot
        exact absurd hnot (by simp)
      · exact ih hin

theorem find?_eq_some_iff {o : Occurrence} :
    find? kind tag cs = some o ↔ IsFirst kind tag cs o := by
  refine ⟨isFirst_of_find?, fun h => ?_⟩
  have hbegins : BeginsIn kind tag cs [] := by
    obtain ⟨hm, hcs, -⟩ := h
    refine ⟨o.before, o.marker ++ o.after, hcs, ?_, o.marker, o.after, hm, List.append_nil _⟩
    exact List.append_ne_nil_of_left_ne_nil hm.ne_nil _
  obtain ⟨o', ho'⟩ := Option.isSome_iff_exists.mp (find?_isSome hbegins)
  rw [ho', (isFirst_of_find? ho').unique h]

/-! ## Markers that overlap -/

/-- What comes before a character that a text does not hold goes on at least as long as that
text. -/
theorem prefix_of_notMem {a b p t : List Char} {c : Char} (h : a ++ b = p ++ c :: t)
    (hc : c ∉ a) : a <+: p := by
  rcases List.append_eq_append_iff.mp h with ⟨q, rfl, -⟩ | ⟨q, rfl, htail⟩
  · exact List.prefix_append a q
  · cases q with
    | nil => simp
    | cons d q =>
      obtain ⟨rfl, -⟩ := List.cons.inj htail
      exact absurd (List.mem_append_right p List.mem_cons_self) hc

theorem suffix_of_notMem {a b p t : List Char} {c : Char} (h : b ++ a = t ++ c :: p)
    (hc : c ∉ a) : a <:+ p := by
  have hrev := congrArg List.reverse h
  simp only [List.reverse_append, List.reverse_cons, List.append_assoc, List.singleton_append]
    at hrev
  exact List.reverse_prefix.mp (prefix_of_notMem hrev (by simpa using hc))

theorem notMem_of_allWhite {s : List Char} (hs : AllWhite s) {c : Char}
    (hc : Text.isWhiteSpace c = false) : c ∉ s :=
  fun hmem => absurd (hs c hmem) (by simp [hc])

theorem IsMarker.length_label_lt (hm : IsMarker kind tag m) :
    (label kind tag).length < m.length := by
  obtain ⟨s, t, -, -, rfl⟩ := hm
  simp only [List.length_append, commentStart, List.length_cons]
  omega

/-- A marker holds no other of its kind in its inside: the other would have to lie in the label, and
is longer than that. -/
theorem not_isMarker_around {post behind : List Char} (hm : IsMarker kind tag m)
    (hpost : post ≠ []) (hbehind : behind ≠ []) :
    ¬ IsMarker kind tag (post ++ (m ++ behind)) := by
  rintro ⟨s', t', hs', ht', h⟩
  have hlonger := hm.length_label_lt
  obtain ⟨s, t, -, -, rfl⟩ := hm
  obtain ⟨c, post, rfl⟩ := List.exists_cons_of_ne_nil hpost
  obtain ⟨behind, d, rfl⟩ := (List.eq_nil_or_concat behind).resolve_left hbehind
  -- the opening of the inner comment lies behind the opening and the white space of the outer one
  have hopening : ['!', '-', '-'] ++ s' <+: post := by
    refine prefix_of_notMem (c := '<') (b := label kind tag ++ (t' ++ commentEnd))
      (t := ['!', '-', '-'] ++ (s ++ (label kind tag ++ (t ++ commentEnd))) ++ (behind ++ [d]))
      ?_ ?_
    · simpa [commentStart] using (List.cons.inj h).2.symm
    · have := notMem_of_allWhite hs' (c := '<') rfl
      simpa using this
  obtain ⟨q, rfl⟩ := hopening
  have h : q ++ (commentStart ++ (s ++ (label kind tag ++ (t ++ commentEnd))) ++ (behind ++ [d])) =
      label kind tag ++ (t' ++ commentEnd) := by
    simpa [commentStart] using (List.cons.inj h).2
  -- and its closing before the white space and the closing of the outer one
  have hclosing : t' ++ ['-', '-'] <:+ behind := by
    refine suffix_of_notMem (c := '>') (b := label kind tag)
      (t := q ++ (commentStart ++ (s ++ (label kind tag ++ (t ++ ['-', '-']))))) ?_ ?_
    · have hend : commentEnd = ['-', '-'] ++ ['>'] := rfl
      have hfront := congrArg List.dropLast h
      rw [hend] at hfront
      simp only [← List.append_assoc, List.dropLast_concat] at hfront
      simpa using hfront.symm
    · have := notMem_of_allWhite ht' (c := '>') rfl
      simpa using this
  obtain ⟨y, rfl⟩ := hclosing
  have hlen := congrArg List.length h
  simp only [List.length_append, commentEnd, List.length_cons, List.length_nil] at hlen hlonger
  omega

/-- A marker that begins before another of its kind ends where that one ends, or before. -/
theorem prefix_of_earlier {post : List Char} (hm : IsMarker kind tag m)
    (hm' : IsMarker kind tag m') (hpost : post ≠ [])
    (h : m' ++ rest' = post ++ (m ++ rest)) : m' <+: post ++ m := by
  have hcut : m' <+: post ++ m ++ rest := by
    rw [List.append_assoc, ← h]
    exact List.prefix_append m' rest'
  rcases List.prefix_or_prefix_of_prefix hcut (List.prefix_append (post ++ m) rest) with hle | hge
  · exact hle
  · obtain ⟨behind, rfl⟩ := hge
    by_cases hbehind : behind = []
    · simp [hbehind]
    · rw [List.append_assoc] at hm'
      exact absurd hm' (not_isMarker_around hm hpost hbehind)

/-- What stands behind a marker has no part in whether one begins before it. -/
theorem beginsIn_marker_iff (hm : IsMarker kind tag m) (rest rest' : List Char) :
    BeginsIn kind tag cs (m ++ rest) ↔ BeginsIn kind tag cs (m ++ rest') := by
  have himp : ∀ r r', BeginsIn kind tag cs (m ++ r) → BeginsIn kind tag cs (m ++ r') := by
    rintro r r' ⟨pre, post, rfl, hpost, m', u, hm', h⟩
    obtain ⟨v, hv⟩ := prefix_of_earlier hm hm' hpost h.symm
    refine ⟨pre, post, rfl, hpost, m', v ++ r', hm', ?_⟩
    rw [← List.append_assoc, ← hv, List.append_assoc]
  exact ⟨himp rest rest', himp rest' rest⟩

end FolderFlow.Marker
