import FolderFlow.Text.Utf8

/-!
# Texts as bytes

A shell reads and writes bytes and asks nothing of them. It holds them as texts in which every
character stands for one byte, so that what is ASCII looks like itself.
-/

namespace FolderFlow.Shell

def ofBytes (bytes : ByteArray) : String :=
  String.ofList (bytes.toList.map fun b => Char.ofNat b.toNat)

def toBytes (text : String) : ByteArray :=
  ⟨(text.toList.map fun c => c.toNat.toUInt8).toArray⟩

/-- The bytes of a text in UTF-8. -/
def encode (text : String) : String :=
  ofBytes text.toUTF8

/-- The texts between separators. -/
def splitAt (separator : Char) : List Char → List String
  | [] => [""]
  | c :: cs =>
    if c == separator then "" :: splitAt separator cs
    else
      match splitAt separator cs with
      | [] => [String.singleton c]
      | p :: ps => (String.singleton c ++ p) :: ps

/-- What bytes read as, for a name in the file tree. -/
def decode (bytes : String) : String :=
  Text.decodeLossy (toBytes bytes)

end FolderFlow.Shell
