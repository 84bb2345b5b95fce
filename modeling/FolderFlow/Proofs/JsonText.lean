import FolderFlow.Json.Printer
import FolderFlow.Proofs.DistinctKeys
import Mathlib.Data.List.Forall2

/-!
# Written values are read again

`Json.readValue_renderChars`: the compact text of a value is read as that value, whatever stands
behind it. This asks for what every value that is written for a flow has: no numbers, no repeated
keys, and not more levels than the reader opens (`Json.Plain`). So different values of that kind
have different texts (`Json.eq_of_render_eq`).
-/

namespace FolderFlow.Json

open Text (hexValue?)

/-! ## Characters and strings -/

theorem hexValue?_hexDigit : ∀ n < 16, hexValue? (hexDigit n) = some n := by
  decide

/-- The escape of a control character is read as that character. -/
theorem readUnicode_control {c : Char} (hc : c.toNat < 0x20) (rest : List Char) :
    readUnicode ('0' :: '0' :: hexDigit (c.toNat / 16) :: hexDigit (c.toNat % 16) :: rest) =
      some (c, rest) := by
  have hunit : readUnit ('0' :: '0' :: hexDigit (c.toNat / 16) :: hexDigit (c.toNat % 16) :: rest) =
      some (c.toNat, rest) := by
    have hzero : hexValue? '0' = some 0 := by decide
    rw [readUnit, hzero, hexValue?_hexDigit _ (by omega), hexValue?_hexDigit _ (by omega)]
    simp only [Option.bind_eq_bind, Option.bind_some, Option.pure_def, Option.some.injEq,
      Prod.mk.injEq, and_true]
    omega
  -- a control character is no surrogate
  have htrail : (0xDC00 ≤ c.toNat && c.toNat ≤ 0xDFFF) = false := by
    simp only [Bool.and_eq_false_iff, decide_eq_false_iff_not]
    omega
  have hlead : (0xD800 ≤ c.toNat && c.toNat ≤ 0xDBFF) = false := by
    simp only [Bool.and_eq_false_iff, decide_eq_false_iff_not]
    omega
  rw [readUnicode, hunit, Option.bind_eq_bind, Option.bind_some]
  dsimp only
  rw [htrail, hlead, if_neg Bool.false_ne_true, if_neg Bool.false_ne_true, Char.ofNat_toNat]

theorem readChars_backslash {c : Char} {cs rest : List Char}
    (h : readEscape cs = some (c, rest)) (fuel : Nat) :
    readChars (fuel + 1) ('\\' :: cs) =
      (readChars fuel rest).map fun found => (c :: found.1, found.2) := by
  rw [readChars, h, Option.bind_eq_bind, Option.bind_some]
  dsimp only
  cases readChars fuel rest <;> rfl

/-- A character that needs no escape stands for itself. -/
theorem readChars_printed {c : Char} (hquote : c ≠ '"') (hbackslash : c ≠ '\\')
    (hprinted : ¬ c.toNat < 0x20) (fuel : Nat) (rest : List Char) :
    readChars (fuel + 1) (c :: rest) =
      (readChars fuel rest).map fun found => (c :: found.1, found.2) := by
  rw [readChars, if_neg hprinted]
  · dsimp only
    cases readChars fuel rest <;> rfl
  · exact hquote
  · exact hbackslash

theorem readChars_escapeChar (c : Char) (fuel : Nat) (rest : List Char) :
    readChars (fuel + 1) (escapeChar c ++ rest) =
      (readChars fuel rest).map fun found => (c :: found.1, found.2) := by
  unfold escapeChar
  split
  · exact readChars_backslash rfl fuel
  · exact readChars_backslash rfl fuel
  · exact readChars_backslash rfl fuel
  · exact readChars_backslash rfl fuel
  · exact readChars_backslash rfl fuel
  · exact readChars_backslash rfl fuel
  · exact readChars_backslash rfl fuel
  · rename_i hquote hbackslash _ _ _ _ _
    split
    · rename_i hcontrol
      have hescape : readEscape ('u' :: '0' :: '0' :: hexDigit (c.toNat / 16) ::
          hexDigit (c.toNat % 16) :: rest) = some (c, rest) := readUnicode_control hcontrol rest
      exact readChars_backslash hescape fuel
    · rename_i hprinted
      exact readChars_printed hquote hbackslash hprinted fuel rest

theorem length_escapeChar_pos (c : Char) : 0 < (escapeChar c).length := by
  unfold escapeChar
  split
  all_goals first
    | exact Nat.succ_pos _
    | split <;> exact Nat.succ_pos _

theorem readChars_flatMap (s rest : List Char) {fuel : Nat}
    (h : (s.flatMap escapeChar).length < fuel) :
    readChars fuel (s.flatMap escapeChar ++ '"' :: rest) = some (s, rest) := by
  induction s generalizing fuel with
  | nil =>
    obtain ⟨fuel, rfl⟩ := Nat.exists_eq_succ_of_ne_zero (Nat.ne_of_gt h)
    rfl
  | cons c s ih =>
    have hpos := length_escapeChar_pos c
    rw [List.flatMap_cons, List.length_append] at h
    obtain ⟨fuel, rfl⟩ := Nat.exists_eq_succ_of_ne_zero (Nat.ne_of_gt (Nat.zero_lt_of_lt h))
    rw [List.flatMap_cons, List.append_assoc, readChars_escapeChar, ih (by omega), Option.map_some]

theorem readString_flatMap (s : String) (rest : List Char) :
    readString (s.toList.flatMap escapeChar ++ '"' :: rest) = some (s, rest) := by
  have hlength : (s.toList.flatMap escapeChar).length <
      (s.toList.flatMap escapeChar ++ '"' :: rest).length + 1 := by
    rw [List.length_append]
    omega
  rw [readString, readChars_flatMap s.toList rest hlength, Option.map_some]
  dsimp only
  rw [String.ofList_toList]

/-! ## Items -/

/-- The item is read from its text, whatever stands behind. The text begins with a character that is
no white space and closes no bracket. -/
structure Reads {α : Type} (item : List Char → Option (α × List Char)) (text : List Char) (a : α) :
    Prop where
  head : ∃ c cs, text = c :: cs ∧ isSpace c = false ∧ c ≠ ']' ∧ c ≠ '\x7d'
  eq : ∀ rest, item (text ++ rest) = some (a, rest)

section Items

variable {α : Type} {item : List Char → Option (α × List Char)} {text rest : List Char} {a : α}
  {closing : Char} {texts : List (List Char)} {as : List α}

theorem skipSpace_cons {c : Char} (h : isSpace c = false) (cs : List Char) :
    skipSpace (c :: cs) = c :: cs := by
  rw [skipSpace, List.dropWhile_cons, h, if_neg Bool.false_ne_true]

theorem Reads.skipSpace_append (h : Reads item text a) (rest : List Char) :
    skipSpace (text ++ rest) = text ++ rest := by
  obtain ⟨c, cs, rfl, hc, -⟩ := h.head
  exact skipSpace_cons hc (cs ++ rest)

/-- A character that closes a list. -/
def Closes (c : Char) : Prop :=
  c = ']' ∨ c = '\x7d'

theorem Reads.not_closes (h : Reads item text a) (hclosing : Closes closing) :
    ∃ c cs, text = c :: cs ∧ isSpace c = false ∧ (c == closing) = false := by
  obtain ⟨c, cs, rfl, hspace, hbracket, hbrace⟩ := h.head
  refine ⟨c, cs, rfl, hspace, ?_⟩
  rw [beq_eq_false_iff_ne]
  rcases hclosing with rfl | rfl
  · exact hbracket
  · exact hbrace

/-- Behind an item and a comma the list goes on. -/
theorem readItems_comma (h : Reads item text a) (fuel : Nat) (rest : List Char) :
    readItems item closing (fuel + 1) (text ++ ',' :: rest) =
      (readItems item closing fuel rest).map fun found => (a :: found.1, found.2) := by
  rw [readItems, h.skipSpace_append, h.eq, Option.bind_eq_bind, Option.bind_some]
  dsimp only
  rw [skipSpace_cons (by decide)]
  dsimp only
  rw [beq_self_eq_true, if_pos rfl]
  cases readItems item closing fuel rest <;> rfl

theorem readItems_closing (h : Reads item text a) (hclosing : Closes closing) (fuel : Nat)
    (rest : List Char) :
    readItems item closing (fuel + 1) (text ++ closing :: rest) = some ([a], rest) := by
  have hspace : isSpace closing = false := by
    rcases hclosing with rfl | rfl <;> decide
  have hcomma : (closing == ',') = false := by
    rcases hclosing with rfl | rfl <;> decide
  rw [readItems, h.skipSpace_append, h.eq, Option.bind_eq_bind, Option.bind_some]
  dsimp only
  rw [skipSpace_cons hspace]
  dsimp only
  rw [hcomma, if_neg Bool.false_ne_true, beq_self_eq_true, if_pos rfl]
  rfl

theorem readItems_intercalate (hclosing : Closes closing) (h : List.Forall₂ (Reads item) texts as)
    (hsome : texts ≠ []) {fuel : Nat} (hfuel : texts.length ≤ fuel) (rest : List Char) :
    readItems item closing fuel ([','].intercalate texts ++ closing :: rest) = some (as, rest) := by
  induction h generalizing fuel with
  | nil => exact absurd rfl hsome
  | @cons text a texts as hfirst hmore ih =>
    obtain ⟨fuel, rfl⟩ := Nat.exists_eq_succ_of_ne_zero (Nat.ne_of_gt (Nat.zero_lt_of_lt hfuel))
    cases hmore with
    | nil =>
      rw [List.intercalate_singleton]
      exact readItems_closing hfirst hclosing fuel rest
    | @cons second b texts as hsecond hmore =>
      rw [List.intercalate_cons_cons, List.append_assoc, List.append_assoc, List.singleton_append,
        readItems_comma hfirst, ih (List.cons_ne_nil _ _) (Nat.le_of_succ_le_succ hfuel),
        Option.map_some]

theorem length_le_intercalate (h : List.Forall₂ (Reads item) texts as) :
    texts.length ≤ ([','].intercalate texts).length := by
  induction h with
  | nil => exact Nat.le_refl _
  | @cons text a texts as hfirst hmore ih =>
    obtain ⟨c, cs, rfl, -⟩ := hfirst.head
    cases hmore with
    | nil => simp
    | cons hsecond hmore =>
      rw [List.intercalate_cons_cons]
      simp only [List.length_append, List.length_cons] at ih ⊢
      omega

/-- What is written between brackets is read behind the opening one. -/
theorem readEnclosed_intercalate (hclosing : Closes closing)
    (h : List.Forall₂ (Reads item) texts as) (rest : List Char) :
    readEnclosed item closing ([','].intercalate texts ++ closing :: rest) = some (as, rest) := by
  cases h with
  | nil =>
    have hspace : isSpace closing = false := by
      rcases hclosing with rfl | rfl <;> decide
    rw [readEnclosed, List.intercalate_nil, List.nil_append, skipSpace_cons hspace]
    dsimp only
    rw [beq_self_eq_true, if_pos rfl]
  | @cons text a texts as hfirst hmore =>
    have hall := List.Forall₂.cons hfirst hmore
    obtain ⟨c, cs, rfl, hspace, hne⟩ := hfirst.not_closes hclosing
    obtain ⟨tail, htail⟩ : ∃ tail, [','].intercalate ((c :: cs) :: texts) = c :: tail := by
      cases texts with
      | nil => exact ⟨cs, List.intercalate_singleton⟩
      | cons => exact ⟨_, List.intercalate_cons_cons⟩
    rw [htail, List.cons_append, readEnclosed, skipSpace_cons hspace]
    dsimp only
    rw [hne, if_neg Bool.false_ne_true, ← List.cons_append, ← htail]
    refine readItems_intercalate hclosing hall (List.cons_ne_nil _ _) ?_ rest
    rw [List.length_append]
    exact Nat.le_succ_of_le (Nat.le_add_right_of_le (length_le_intercalate hall))

end Items

/-! ## Members -/

section Members

variable {value : List Char → Option (Json × List Char)} {text : List Char} {j : Json}

theorem quote_append (s : String) (rest : List Char) :
    quote s ++ rest = '"' :: (s.toList.flatMap escapeChar ++ '"' :: rest) := by
  rw [quote, List.cons_append, List.cons_append, List.append_assoc, List.singleton_append]

theorem reads_member (key : String) (h : Reads value text j) :
    Reads (readMember value) (quote key ++ ':' :: text) (key, j) := by
  refine ⟨⟨'"', _, quote_append key _, by decide, by decide, by decide⟩, fun rest => ?_⟩
  rw [List.append_assoc, quote_append, readMember, readString_flatMap, Option.bind_eq_bind,
    Option.bind_some, List.cons_append]
  dsimp only
  rw [skipSpace_cons (by decide)]
  change (value (skipSpace (text ++ rest))).bind (fun found => some ((key, found.1), found.2)) = _
  rw [h.skipSpace_append, h.eq, Option.bind_some]

theorem foldl_insert_of_nodup {found pairs : Members}
    (h : (Members.keys (found ++ pairs)).Nodup) :
    pairs.foldl (fun members (key, value) => Members.insert members key value) found =
      found ++ pairs := by
  induction pairs generalizing found with
  | nil => rw [List.append_nil, List.foldl_nil]
  | cons pair pairs ih =>
    obtain ⟨key, value⟩ := pair
    have hnew : key ∉ Members.keys found := by
      rw [Members.keys, List.map_append, List.map_cons, List.nodup_append] at h
      exact fun hmem => h.2.2 key hmem key List.mem_cons_self rfl
    rw [List.append_cons] at h
    rw [List.foldl_cons, List.append_cons, ← ih h, ← Members.insert_of_notMem hnew]

/-- Members without repeats are put together as they are. -/
theorem ofPairs_of_nodup {pairs : Members} (h : (Members.keys pairs).Nodup) :
    ofPairs pairs = .object pairs :=
  congrArg Json.object (@foldl_insert_of_nodup [] pairs h)

end Members

/-! ## Values -/

/-- A value without numbers and without repeated keys, which nests at most `levels` deep. -/
inductive Plain : Nat → Json → Prop where
  | null (levels : Nat) : Plain levels .null
  | bool (levels : Nat) (b : Bool) : Plain levels (.bool b)
  | string (levels : Nat) (s : String) : Plain levels (.string s)
  | array {levels : Nat} {items : List Json} : (∀ item ∈ items, Plain levels item) →
      Plain (levels + 1) (.array items)
  | object {levels : Nat} {members : Members} : (Members.keys members).Nodup →
      (∀ member ∈ members, Plain levels member.2) → Plain (levels + 1) (.object members)

theorem renderItems_eq_map (items : List Json) : renderItems items = items.map renderChars := by
  induction items with
  | nil => rfl
  | cons item items ih => rw [renderItems, ih, List.map_cons]

theorem renderMembers_eq_map (members : Members) :
    renderMembers members =
      members.map fun member => quote member.1 ++ ':' :: renderChars member.2 := by
  induction members with
  | nil => rfl
  | cons member members ih =>
    obtain ⟨key, value⟩ := member
    rw [renderMembers, ih, List.map_cons]

theorem forall₂_reads {α : Type} {item : List Char → Option (α × List Char)}
    {write : α → List Char} {as : List α} (h : ∀ a ∈ as, Reads item (write a) a) :
    List.Forall₂ (Reads item) (as.map write) as := by
  rw [List.forall₂_map_left_iff, List.forall₂_same]
  exact h

theorem readName_append (name : String) (j : Json) (rest : List Char) :
    readName name j (name.toList ++ rest) = some (j, rest) := by
  rw [readName, if_pos (List.isPrefixOf_iff_prefix.mpr (List.prefix_append _ _)),
    ← String.length_toList, List.drop_left]

theorem enclose_append (opening closing : Char) (texts : List (List Char)) (rest : List Char) :
    enclose opening closing texts ++ rest =
      opening :: ([','].intercalate texts ++ closing :: rest) := by
  rw [enclose, List.cons_append, List.cons_append, List.append_assoc, List.singleton_append]

theorem reads_renderChars {levels : Nat} {j : Json} (h : Plain levels j) :
    Reads (readValue levels) (renderChars j) j := by
  induction h with
  | null levels =>
    refine ⟨⟨'n', _, rfl, by decide, by decide, by decide⟩, fun rest => ?_⟩
    rw [renderChars, List.cons_append, readValue]
    exact readName_append "null" .null rest
  | bool levels b =>
    cases b with
    | true =>
      refine ⟨⟨'t', _, rfl, by decide, by decide, by decide⟩, fun rest => ?_⟩
      rw [renderChars, List.cons_append, readValue]
      exact readName_append "true" (.bool true) rest
    | false =>
      refine ⟨⟨'f', _, rfl, by decide, by decide, by decide⟩, fun rest => ?_⟩
      rw [renderChars, List.cons_append, readValue]
      exact readName_append "false" (.bool false) rest
  | string levels s =>
    refine ⟨⟨'"', _, rfl, by decide, by decide, by decide⟩, fun rest => ?_⟩
    rw [renderChars, quote_append, readValue, readString_flatMap, Option.map_some]
  | @array levels items _ ih =>
    refine ⟨⟨'[', _, rfl, by decide, by decide, by decide⟩, fun rest => ?_⟩
    rw [renderChars, enclose_append, readValue, renderItems_eq_map,
      readEnclosed_intercalate (Or.inl rfl) (forall₂_reads ih), Option.map_some]
  | @object levels members hkeys _ ih =>
    refine ⟨⟨'\x7b', _, rfl, by decide, by decide, by decide⟩, fun rest => ?_⟩
    have hmembers : ∀ member ∈ members, Reads (readMember (readValue levels))
        (quote member.1 ++ ':' :: renderChars member.2) member :=
      fun member hmember => reads_member member.1 (ih member hmember)
    rw [renderChars, enclose_append, readValue, renderMembers_eq_map,
      readEnclosed_intercalate (Or.inr rfl) (forall₂_reads hmembers), Option.map_some]
    dsimp only
    rw [ofPairs_of_nodup hkeys]

/-- **Reading what is written.** The text of a plain value is read as that value, and the reading
ends where the text ends. -/
theorem readValue_renderChars {levels : Nat} {j : Json} (h : Plain levels j) (rest : List Char) :
    readValue levels (renderChars j ++ rest) = some (j, rest) :=
  (reads_renderChars h).eq rest

/-- Plain values with the same text are the same. -/
theorem eq_of_render_eq {levels : Nat} {j j' : Json} (h : Plain levels j) (h' : Plain levels j')
    (heq : j.render = j'.render) : j = j' := by
  have hchars : renderChars j = renderChars j' := by
    have h := congrArg String.toList heq
    rwa [render, render, String.toList_ofList, String.toList_ofList] at h
  have hread := readValue_renderChars h []
  rw [hchars, readValue_renderChars h' []] at hread
  exact (Prod.mk.inj (Option.some.inj hread)).1.symm

end FolderFlow.Json
