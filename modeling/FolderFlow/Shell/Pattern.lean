import FolderFlow.Host.FileTree
import FolderFlow.Shell.Bytes

/-!
# Patterns

A pattern stands for texts: a star for any text, a question mark for one byte, brackets for one byte
of a set. What is quoted in a pattern stands for itself. Patterns of paths stand for the paths that
there are in a file tree.
-/

namespace FolderFlow.Shell

/-- A byte of a pattern. -/
structure Glyph where
  char : Char
  quoted : Bool
  deriving DecidableEq, Repr

/-- Whether the byte has the meaning that `c` has in patterns. -/
def Glyph.is (g : Glyph) (c : Char) : Bool :=
  g.char == c && !g.quoted

abbrev Pattern := List Glyph

namespace Pattern

def text (p : Pattern) : String :=
  String.ofList (p.map Glyph.char)

/-- A backslash that has come out of a substitution quotes what follows it. -/
def unescape : Pattern → Pattern
  | ⟨'\\', false⟩ :: g :: rest => ⟨g.char, true⟩ :: unescape rest
  | g :: rest => g :: unescape rest
  | [] => []

/-! ## Sets -/

/-- The named classes of bytes. -/
def inClass (name : String) (c : Char) : Bool :=
  let isGraph := 33 ≤ c.toNat && c.toNat ≤ 126
  match name with
  | "alnum" => c.isAlphanum
  | "alpha" => c.isAlpha
  | "blank" => c == ' ' || c == '\t'
  | "cntrl" => c.toNat < 32 || c.toNat == 127
  | "digit" => c.isDigit
  | "graph" => isGraph
  | "lower" => c.isLower
  | "print" => isGraph || c == ' '
  | "punct" => isGraph && !c.isAlphanum
  | "space" => c == ' ' || (9 ≤ c.toNat && c.toNat ≤ 13)
  | "upper" => c.isUpper
  | "xdigit" => c.isDigit || ('a' ≤ c && c ≤ 'f') || ('A' ≤ c && c ≤ 'F')
  | _ => false

def classNames : List String :=
  ["alnum", "alpha", "blank", "cntrl", "digit", "graph", "lower", "print", "punct", "space",
    "upper", "xdigit"]

/-- A class behind an opening bracket, and what follows it. -/
def class? : Pattern → Option (String × Pattern)
  | ⟨':', _⟩ :: rest =>
    let name := text (rest.takeWhile fun g => g.char.isAlpha)
    match rest.drop name.length with
    | ⟨':', _⟩ :: ⟨']', _⟩ :: rest => if classNames.contains name then some (name, rest) else none
    | _ => none
  | _ => none

/-- Whether `c` is in the set that a bracket opened, and what follows the set. There is none when it
is not closed. -/
def inSet (c : Char) : (fuel : Nat) → (found first : Bool) → Pattern → Option (Bool × Pattern)
  | 0, _, _, _ => none
  | _, _, _, [] => none
  | fuel + 1, found, first, g :: rest =>
    if g.is ']' && !first then some (found, rest)
    else
      match (if g.is '[' then class? rest else none), rest with
      | some (name, rest), _ => inSet c fuel (found || inClass name c) false rest
      | none, ⟨'-', false⟩ :: last :: rest' =>
        if last.is ']' then inSet c fuel (found || g.char == c) false rest
        else inSet c fuel (found || (g.char ≤ c && c ≤ last.char)) false rest'
      | none, rest => inSet c fuel (found || g.char == c) false rest

/-- Whether `c` is in the set behind an opening bracket, which an exclamation mark inverts. -/
def set? (c : Char) : Pattern → Option (Bool × Pattern)
  | ⟨'!', false⟩ :: rest =>
    (inSet c (rest.length + 1) false true rest).map fun (found, rest) => (!found, rest)
  | p => inSet c (p.length + 1) false true p

/-! ## Matching -/

def suffixes : List Char → List (List Char)
  | [] => [[]]
  | c :: cs => (c :: cs) :: suffixes cs

def matchesWith : (fuel : Nat) → Pattern → List Char → Bool
  | 0, _, _ => false
  | _, [], cs => cs.isEmpty
  | fuel + 1, g :: p, cs =>
    if g.is '*' then p.isEmpty || (suffixes cs).any (matchesWith fuel p)
    else
      match cs with
      | [] => false
      | c :: cs =>
        if g.is '?' then matchesWith fuel p cs
        else
          match if g.is '[' then set? c p else none with
          | some (found, p) => found && matchesWith fuel p cs
          | none => g.char == c && matchesWith fuel p cs

def isMatch (p : Pattern) (text : List Char) : Bool :=
  matchesWith (p.length + 1) (unescape p) text

/-- The text without what the pattern matches at its beginning or its end, if that is something. -/
def trim (p : Pattern) (atEnd longest : Bool) (text : List Char) : List Char :=
  let counts := List.range (text.length + 1)
  let counts := if longest == atEnd then counts else counts.reverse
  if atEnd then
    match counts.find? fun n => p.isMatch (text.drop n) with
    | some n => text.take n
    | none => text
  else
    match counts.find? fun n => p.isMatch (text.take n) with
    | some n => text.drop n
    | none => text

/-- Whether the pattern matches some end of a text. -/
def matchesEnd (p : Pattern) (text : List Char) : Bool :=
  (suffixes text).any p.isMatch

/-- The texts up to the last one that has an end that the pattern matches, without that end. -/
def trimLast? (p : Pattern) : List (List Char) → Option (List (List Char))
  | [] => none
  | text :: texts =>
    match trimLast? p texts with
    | some trimmed => some (text :: trimmed)
    | none => if p.matchesEnd text then some [p.trim true false text] else none

/-- The texts without what the pattern matches. A beginning is looked for in the first text, and an
end takes all texts behind it along. -/
def trimAll (p : Pattern) (atEnd longest : Bool) (texts : List (List Char)) : List (List Char) :=
  match atEnd, longest, texts with
  | false, true, first :: rest =>
    if p.isMatch first then [[]] else p.trim false true first :: rest
  | false, false, first :: rest => p.trim false false first :: rest
  | true, true, first :: _ => if p.matchesEnd first then [p.trim true true first] else texts
  | true, false, texts => (p.trimLast? texts).getD texts
  | _, _, [] => []

/-! ## Paths -/

/-- Whether a bracket is closed before the step of the path ends. -/
def isClosed : Pattern → Bool
  | ⟨'!', false⟩ :: rest => (rest.drop 1).any fun g => g.is ']'
  | rest => (rest.drop 1).any fun g => g.is ']'

/-- Whether a pattern can stand for other texts than its own. -/
def isActive : Pattern → Bool
  | [] => false
  | g :: rest =>
    g.is '*' || g.is '?' || (g.is '[' && isClosed rest) || isActive rest

/-- The patterns of the steps of a path. -/
def splitSteps : Pattern → List Pattern
  | [] => [[]]
  | g :: rest =>
    if g.char == '/' then [] :: splitSteps rest
    else
      match splitSteps rest with
      | [] => [[g]]
      | p :: ps => (g :: p) :: ps

/-- The names in a directory, with those of the directory itself and the one above. -/
def names (t : FileTree) (cwd : Location) (dir : String) : List String :=
  match t.locate cwd (if dir.isEmpty then "." else decode dir) with
  | .error _ => []
  | .ok loc =>
    if !t.isDir loc then []
    else
      let inside := t.entries.filterMap fun e =>
        match e.1 with
        | name :: dir => if dir == loc then some (encode name) else none
        | [] => none
      "." :: ".." :: inside

/-- Hidden names are matched only by patterns that show their dot. -/
def matchesName (p : Pattern) (name : String) : Bool :=
  (name.toList.head? != some '.' || p.head?.any (·.char == '.')) && p.isMatch name.toList

/-- The paths that patterns of steps stand for, behind a path that has been matched. -/
def paths (t : FileTree) (cwd : Location) : (before : String) → List Pattern → List String
  | before, [] => if (t.locate cwd (decode before)).isOk then [before] else []
  | before, p :: ps =>
    let ending := if ps.isEmpty then "" else "/"
    if isActive p then
      ((names t cwd before).filter (matchesName p)).flatMap fun name =>
        paths t cwd (before ++ name ++ ending) ps
    else paths t cwd (before ++ text p ++ ending) ps

/-- The paths that a pattern stands for, in order. -/
def expandPath (p : Pattern) (t : FileTree) (cwd : Location) : List String :=
  let steps := splitSteps (unescape p)
  if steps.any isActive then (paths t cwd "" steps).mergeSort Text.atMost else []

end Pattern

end FolderFlow.Shell
