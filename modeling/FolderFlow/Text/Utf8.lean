/-!
# UTF-8

The size of a text in bytes, and the reading of bytes that need not be UTF-8: what cannot be read is
shown as U+FFFD, one for each maximal part that could have begun a character.
-/

namespace FolderFlow.Text

/-- The bytes a list of characters takes in UTF-8. -/
def utf8Length : List Char → Nat
  | [] => 0
  | c :: cs => c.utf8Size + utf8Length cs

@[simp] theorem utf8Length_append (a b : List Char) :
    utf8Length (a ++ b) = utf8Length a + utf8Length b := by
  induction a with
  | nil => simp [utf8Length]
  | cons c cs ih => simp [utf8Length, ih, Nat.add_assoc]

/-! ## Lossy decoding -/

/-- What may follow a leading byte: how many bytes, and the range of the first of them. The ranges
keep out overlong forms, surrogates and code points past U+10FFFF. -/
def continuation (lead : Nat) : Option (Nat × Nat × Nat) :=
  if 0xC2 ≤ lead && lead ≤ 0xDF then some (1, 0x80, 0xBF)
  else if lead == 0xE0 then some (2, 0xA0, 0xBF)
  else if lead == 0xED then some (2, 0x80, 0x9F)
  else if 0xE1 ≤ lead && lead ≤ 0xEF then some (2, 0x80, 0xBF)
  else if lead == 0xF0 then some (3, 0x90, 0xBF)
  else if 0xF1 ≤ lead && lead ≤ 0xF3 then some (3, 0x80, 0xBF)
  else if lead == 0xF4 then some (3, 0x80, 0x8F)
  else none

/-- Adds continuation bytes to `code` while they fit; `none` when one is missing. The bytes that
were read are dropped from the rest either way. -/
def continueWith (code : Nat) : (count lo hi : Nat) → List Nat → Option Nat × List Nat
  | 0, _, _, rest => (some code, rest)
  | _ + 1, _, _, [] => (none, [])
  | count + 1, lo, hi, b :: rest =>
    if lo ≤ b && b ≤ hi then continueWith (code * 64 + b % 64) count 0x80 0xBF rest
    else (none, b :: rest)

theorem length_continueWith_le (code count lo hi : Nat) (bytes : List Nat) :
    (continueWith code count lo hi bytes).2.length ≤ bytes.length := by
  induction count generalizing code lo hi bytes with
  | zero => simp [continueWith]
  | succ count ih =>
    cases bytes with
    | nil => simp [continueWith]
    | cons b rest =>
      simp only [continueWith]
      split
      · exact Nat.le_trans (ih ..) (by simp)
      · simp

/-- The first character of `lead :: rest`, and the bytes behind it. -/
def decodeFirst (lead : Nat) (rest : List Nat) : Char × List Nat :=
  if lead < 0x80 then (Char.ofNat lead, rest)
  else
    match continuation lead with
    | none => ('\uFFFD', rest)
    | some (count, lo, hi) =>
      let (code, rest) := continueWith (lead % (128 >>> (count + 1))) count lo hi rest
      (code.elim '\uFFFD' Char.ofNat, rest)

theorem length_decodeFirst_le (lead : Nat) (rest : List Nat) :
    (decodeFirst lead rest).2.length ≤ rest.length := by
  simp only [decodeFirst]
  split
  · exact Nat.le_refl _
  · split
    · exact Nat.le_refl _
    · exact length_continueWith_le ..

def decodeBytes : List Nat → List Char
  | [] => []
  | lead :: rest =>
    let first := decodeFirst lead rest
    first.1 :: decodeBytes first.2
termination_by bytes => bytes.length
decreasing_by exact Nat.lt_succ_of_le (length_decodeFirst_le ..)

/-- Reads bytes as UTF-8, with U+FFFD for what is not. -/
def decodeLossy (bytes : ByteArray) : String :=
  String.ofList (decodeBytes (bytes.toList.map UInt8.toNat))

end FolderFlow.Text
