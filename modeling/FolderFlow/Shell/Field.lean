import FolderFlow.Shell.Pattern

/-!
# Fields

A word comes out of its substitutions as runs of bytes, of which some are cut into fields at the
separators that the script has set. Quotation marks are kept until then, for a field that is
quoted stands even when it is empty.
-/

namespace FolderFlow.Shell

inductive Mark where
  | glyph (g : Glyph)
  /-- Where quotes were. -/
  | quote
  /-- Where one argument ends and the next begins. -/
  | edge
  deriving DecidableEq, Repr

/-- Where a run is cut. -/
inductive Cut where
  | nowhere
  | atSeparators
  | atEdges
  deriving DecidableEq, Repr

structure Run where
  marks : List Mark
  cut : Cut

namespace Run

def ofText (text : String) (quoted : Bool) (cut : Cut) : Run :=
  ⟨text.toList.map fun c => .glyph ⟨c, quoted⟩, cut⟩

/-- A text that was written with quotes. -/
def ofQuoted (text : String) : Run :=
  ⟨.quote :: (ofText text true .nowhere).marks, .nowhere⟩

end Run

def glyphs (marks : List Mark) : Pattern :=
  marks.filterMap fun
    | .glyph g => some g
    | _ => none

/-- The text of runs that are not cut. -/
def textOfRuns (runs : List Run) : String :=
  Pattern.text (runs.flatMap fun r => glyphs r.marks)

/-! ## Cutting -/

/-- Fields that are complete and the one that is being read, all in reverse. -/
structure Fields where
  complete : List (List Mark) := []
  current : List Mark := []
  /-- How many fields there may still be. The last one takes all that is left. -/
  limit : Option Nat := none
  /-- Where the last field ends if nothing but separators follows. -/
  endsAt : Option Nat := none
  afterBlank : Bool := false
  /-- Whether the run that was cut before this one was cut at edges. Separators right behind them
  each end a field. -/
  behindEdges : Bool := false

namespace Fields

def add (f : Fields) (m : Mark) : Fields :=
  { f with current := m :: f.current }

def finish (f : Fields) : Fields :=
  { f with
    complete := f.current.reverse :: f.complete
    current := []
    limit := f.limit.map (· - 1) }

/-- The last field without the separators behind it. -/
def trimmed (f : Fields) : Fields :=
  match f.endsAt with
  | some n => { f with current := f.current.drop (f.current.length - n) }
  | none => f

end Fields

/-- Blanks among the separators count as one wherever several of them meet. -/
def isBlankMark : Mark → Bool
  | .glyph g => g.char == ' ' || g.char == '\t' || g.char == '\n'
  | .edge => true
  | .quote => false

def isSeparator (separators : String) : Mark → Bool
  | .glyph g => separators.toList.contains g.char
  | .edge => true
  | .quote => false

/-- Drops the separators that belong to the one that has just ended a field: blanks, and if that was
a blank itself, another one among them. -/
def dropSeparators (separators : String) : (blank : Bool) → List Mark → List Mark
  | _, [] => []
  | blank, m :: ms =>
    if !isSeparator separators m then m :: ms
    else if isBlankMark m then dropSeparators separators blank ms
    else if blank then dropSeparators separators false ms
    else m :: ms

/-- Adds to the field behind which there may be no other. -/
def Fields.addLast (separators : String) (m : Mark) (f : Fields) : Fields :=
  let separates := isSeparator separators m
  if separates && isBlankMark m then
    { f.add m with endsAt := some (f.endsAt.getD f.current.length) }
  else
    { f.add m with
      endsAt := if separates && f.afterBlank then f.endsAt else none
      afterBlank := false }

def cutAtSeparators (separators : String) : (fuel : Nat) → List Mark → Fields → Fields
  | 0, _, f => f
  | _, [], f => f
  | fuel + 1, m :: ms, f =>
    if f.limit == some 0 then cutAtSeparators separators fuel ms (f.addLast separators m)
    else if !isSeparator separators m then cutAtSeparators separators fuel ms (f.add m)
    else if isBlankMark m && f.current.isEmpty && !f.behindEdges then
      cutAtSeparators separators fuel ms f
    else if f.limit == some 1 then
      let f := { f.add m with
        limit := some 0, endsAt := some f.current.length, afterBlank := isBlankMark m }
      cutAtSeparators separators fuel ms f
    else
      let ms := if f.behindEdges then ms else dropSeparators separators (isBlankMark m) ms
      cutAtSeparators separators fuel ms f.finish

def cutAtEdges : List Mark → Fields → Fields
  | [], f => f
  | .edge :: ms, f => cutAtEdges ms f.finish
  | m :: ms, f => cutAtEdges ms (f.add m)

def cutRun (separators : String) (f : Fields) (r : Run) : Fields :=
  match r.cut with
  | .nowhere => r.marks.foldl Fields.add f
  | .atSeparators =>
    let f := cutAtSeparators separators (r.marks.length + 1) r.marks { f with afterBlank := false }
    { f with behindEdges := false }
  | .atEdges => { cutAtEdges r.marks f with behindEdges := true }

/-- The fields of a word. An empty rest is no field, unless it is the last of all arguments. -/
def fieldsOfRuns (separators : String) (limit : Option Nat) (runs : List Run) : List Pattern :=
  let f := (runs.foldl (cutRun separators) { limit }).trimmed
  let last := (runs.filter fun r => r.cut != .nowhere).getLast?
  let f := if f.current.isEmpty && !last.any (·.cut == .atEdges) then f else f.finish
  f.complete.reverse.map glyphs

/-- The separators that hold where none have been set. -/
def standardSeparators : String :=
  " \t\n"

end FolderFlow.Shell
