import FolderFlow.Proofs.Region

/-!
# Splicing again and again

A text in which a region is found can be spliced any number of times, whatever the bodies hold
(`splices_keep_outside`). The region always begins at the same byte, and no byte outside the first
region is lost: the bytes before it stay in front, and those behind it stay at the end.

One splice keeps the head of the region, and its tail only grows at the front
(`exists_locate_splice`). Both carry over to a run of splices (`exists_locate_splices`).
-/

namespace FolderFlow

/-! ## Bytes of a text -/

namespace Text

/-- The bytes of a text in UTF-8. -/
def bytes (s : String) : List UInt8 :=
  s.toUTF8.data.toList

theorem bytes_append (s t : String) : bytes (s ++ t) = bytes s ++ bytes t := by
  unfold bytes
  rw [String.toUTF8_eq_toByteArray, String.toByteArray_append, ByteArray.data_append,
    Array.toList_append]
  rfl

theorem bytes_injective : Function.Injective bytes := by
  intro s t h
  have hdata : s.toUTF8.data = t.toUTF8.data := Array.toList_inj.mp h
  rw [String.toUTF8_eq_toByteArray, String.toUTF8_eq_toByteArray] at hdata
  exact String.toByteArray_inj.mp (ByteArray.ext hdata)

theorem length_bytes_ofList (cs : List Char) :
    (bytes (String.ofList cs)).length = utf8Length cs := by
  have hsize : (String.ofList cs).utf8ByteSize = utf8Length cs := by
    induction cs with
    | nil => rfl
    | cons c cs ih => simp [utf8Length, ← ih, String.ofList_cons]
  rw [← hsize]
  rfl

end Text

namespace Region

open Text (bytes)

variable {tag text : String} {r r' : Region}

/-! ## The parts of a text in bytes -/

theorem bytes_of_locate (h : locate tag text.toList = .ok r) :
    bytes text = bytes (.ofList r.head) ++ bytes (.ofList r.body) ++ bytes (.ofList r.tail) := by
  have htext := congrArg String.ofList (eq_of_locate h)
  rw [String.ofList_toList, ← List.append_assoc, String.ofList_append, String.ofList_append]
    at htext
  rw [htext, Text.bytes_append, Text.bytes_append]

/-- The head is what stands before the range. -/
theorem take_range (h : locate tag text.toList = .ok r) :
    (bytes text).take r.range.1 = bytes (.ofList r.head) := by
  rw [bytes_of_locate h, List.append_assoc, range, ← Text.length_bytes_ofList, List.take_left]

/-- The tail is what stands behind the range. -/
theorem drop_range (h : locate tag text.toList = .ok r) :
    (bytes text).drop r.range.2 = bytes (.ofList r.tail) := by
  rw [bytes_of_locate h, range, ← Text.length_bytes_ofList, ← Text.length_bytes_ofList,
    ← List.length_append, List.drop_left]

/-! ## One splice -/

/-- `r'` keeps what stands outside `r`: the same head, and a tail that ends with that of `r`. -/
structure Keeps (r r' : Region) : Prop where
  head : r'.head = r.head
  tail : r.tail <:+ r'.tail

theorem Keeps.refl (r : Region) : Keeps r r :=
  ⟨rfl, List.suffix_rfl⟩

theorem Keeps.trans {r'' : Region} (h : Keeps r r') (h' : Keeps r' r'') : Keeps r r'' :=
  ⟨h'.head.trans h.head, h.tail.trans h'.tail⟩

/-- A splice succeeds, and the region is found again with the same outside. An end marker in the
body may end it earlier; the rest of the body then goes to the tail. -/
theorem exists_locate_splice (h : locate tag text.toList = .ok r) (body : String) :
    ∃ t r', splice tag text body = .ok t ∧ locate tag t.toList = .ok r' ∧ Keeps r r' := by
  obtain ⟨kept, extra, -, hlocate, -⟩ := locate_fill h body.toList
  refine ⟨String.ofList (r.fill body.toList), ⟨r.head, kept, extra ++ r.tail⟩, ?_, ?_, rfl, ?_⟩
  · rw [splice, h]
    rfl
  · rw [String.toList_ofList]
    exact hlocate
  · exact List.suffix_append extra r.tail

/-! ## A run of splices -/

/-- The text after one splice for each body, in turn. -/
def splices (tag text : String) (bodies : List String) : Except MarkerError String :=
  bodies.foldlM (splice tag) text

theorem splices_cons {t : String} {body : String} (h : splice tag text body = .ok t)
    (bodies : List String) : splices tag text (body :: bodies) = splices tag t bodies := by
  rw [splices, List.foldlM_cons, h]
  rfl

theorem exists_locate_splices (h : locate tag text.toList = .ok r) (bodies : List String) :
    ∃ t r', splices tag text bodies = .ok t ∧ locate tag t.toList = .ok r' ∧ Keeps r r' := by
  induction bodies generalizing text r with
  | nil => exact ⟨text, r, rfl, h, Keeps.refl r⟩
  | cons body bodies ih =>
    obtain ⟨between, r₁, hsplice, hlocate, hkeeps⟩ := exists_locate_splice h body
    obtain ⟨t, r', hsplices, hlocate', hkeeps'⟩ := ih hlocate
    refine ⟨t, r', ?_, hlocate', hkeeps.trans hkeeps'⟩
    rw [splices_cons hsplice, hsplices]

/-- **Nothing outside the markers is lost.** When a region is found in a text, every run of splices
succeeds, whatever the bodies hold. The region of the text that comes out begins at the same byte,
and the text begins with the bytes that stood before the first region and ends with those that stood
behind it. This goes for every list of bodies, and so for each text on the way. -/
theorem splices_keep_outside (h : locate tag text.toList = .ok r) (bodies : List String) :
    ∃ t r', splices tag text bodies = .ok t ∧ locate tag t.toList = .ok r' ∧
      r'.range.1 = r.range.1 ∧
      (bytes text).take r.range.1 <+: bytes t ∧ (bytes text).drop r.range.2 <:+ bytes t := by
  obtain ⟨t, r', hsplices, hlocate, hhead, front, htail⟩ := exists_locate_splices h bodies
  have hbytes := bytes_of_locate hlocate
  refine ⟨t, r', hsplices, hlocate, by rw [range, range, hhead], ?_, ?_⟩
  · rw [take_range h, hbytes, hhead, List.append_assoc]
    exact List.prefix_append _ _
  · rw [drop_range h, hbytes, ← htail, String.ofList_append, Text.bytes_append]
    exact (List.suffix_append _ _).trans (List.suffix_append _ _)

/-- The bodies hold markers of the tag themselves, and the tag begins a comment. -/
theorem splices_of_markers :
    ∃ r, locate "<!--" "é <!--<!--:START--> old <!-- <!--:END --> z".toList = .ok r ∧
      r.range = (20, 25) ∧
    ∃ t r', splices "<!--" "é <!--<!--:START--> old <!-- <!--:END --> z"
        ["<!--<!--:END--> ß", "<!--<!--:START-->"] = .ok t ∧
      locate "<!--" t.toList = .ok r' ∧ r'.range.1 = 20 ∧
      bytes "é <!--<!--:START-->" <+: bytes t ∧ bytes "<!-- <!--:END --> z" <:+ bytes t := by
  have h : locate "<!--" "é <!--<!--:START--> old <!-- <!--:END --> z".toList =
      .ok ⟨"é <!--<!--:START-->".toList, " old ".toList, "<!-- <!--:END --> z".toList⟩ := by
    decide
  obtain ⟨t, r', hsplices, hlocate, hrange, hfront, hback⟩ :=
    splices_keep_outside h ["<!--<!--:END--> ß", "<!--<!--:START-->"]
  rw [take_range h] at hfront
  rw [drop_range h] at hback
  exact ⟨_, h, by decide, t, r', hsplices, hlocate, hrange, hfront, hback⟩

end Region

end FolderFlow
