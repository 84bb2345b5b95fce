import FolderFlow.Text.Blank
import FolderFlow.Text.Utf8

/-!
# Markers

A region of a text is bounded by two comments that name a tag, `<!-- TAG:START -->` and
`<!-- TAG:END -->`. White space behind the opening and before the closing of a comment may be of any
length; the tag is taken literally. The region begins behind the first start marker and ends before
the first end marker behind that.
-/

namespace FolderFlow

namespace Marker

inductive Kind where
  | opening
  | closing
  deriving DecidableEq, Repr

def Kind.word : Kind → List Char
  | opening => ['S', 'T', 'A', 'R', 'T']
  | closing => ['E', 'N', 'D']

def commentStart : List Char :=
  ['<', '!', '-', '-']

def commentEnd : List Char :=
  ['-', '-', '>']

/-- What a marker names: the tag and the kind. -/
def label (kind : Kind) (tag : List Char) : List Char :=
  tag ++ ':' :: kind.word

/-- A marker as it is usually written. -/
def canonical (kind : Kind) (tag : String) : String :=
  String.ofList (commentStart ++ ' ' :: label kind tag.toList ++ ' ' :: commentEnd)

/-! ## Occurrences -/

/-- What follows `p` at the front of a text. -/
def after? (p cs : List Char) : Option (List Char) :=
  if p.isPrefixOf cs then some (cs.drop p.length) else none

/-- Passes over white space up to the first place where `next` succeeds. -/
def spaced (next : List Char → Option (List Char)) : List Char → Option (List Char)
  | [] => next []
  | c :: cs =>
    match next (c :: cs) with
    | some rest => some rest
    | none => if Text.isWhiteSpace c then spaced next cs else none

/-- What follows a marker at the front of a text. -/
def markerAt? (kind : Kind) (tag cs : List Char) : Option (List Char) :=
  (after? commentStart cs).bind <| spaced fun cs =>
    (after? (label kind tag) cs).bind <| spaced <| after? commentEnd

/-- A text cut at a marker. -/
structure Occurrence where
  before : List Char
  marker : List Char
  after : List Char
  deriving DecidableEq, Repr

/-- The first marker of a kind. -/
def find? (kind : Kind) (tag : List Char) : List Char → Option Occurrence
  | [] => none
  | c :: cs =>
    match markerAt? kind tag (c :: cs) with
    | some rest => some ⟨[], (c :: cs).take ((c :: cs).length - rest.length), rest⟩
    | none => (find? kind tag cs).map fun o => { o with before := c :: o.before }

end Marker

inductive MarkerError where
  | missingStart (tag : String)
  | missingEnd (tag : String)
  | outOfOrder (tag : String)
  deriving DecidableEq, Repr

def MarkerError.message : MarkerError → String
  | missingStart tag => "start marker `" ++ Marker.canonical .opening tag ++ "` not found"
  | missingEnd tag => "end marker `" ++ Marker.canonical .closing tag ++ "` not found"
  | outOfOrder tag =>
    "end marker `" ++ Marker.canonical .closing tag ++ "` appears before the start marker"

/-! ## Regions -/

/-- A text cut at the ends of its marked region; the markers belong to the outer parts. -/
structure Region where
  head : List Char
  body : List Char
  tail : List Char
  deriving DecidableEq, Repr

namespace Region

/-- The region that a tag marks. An end marker that is only found before the end of the start marker
is out of order. -/
def locate (tag : String) (text : List Char) : Except MarkerError Region :=
  match Marker.find? .opening tag.toList text with
  | none => .error (.missingStart tag)
  | some first =>
    match Marker.find? .closing tag.toList first.after with
    | some last => .ok ⟨first.before ++ first.marker, last.before, last.marker ++ last.after⟩
    | none =>
      if (Marker.find? .closing tag.toList text).isSome then .error (.outOfOrder tag)
      else .error (.missingEnd tag)

/-- The first and the last position of the region, in bytes of UTF-8. -/
def range (r : Region) : Nat × Nat :=
  (Text.utf8Length r.head, Text.utf8Length r.head + Text.utf8Length r.body)

/-- The text with a new body on lines of its own. -/
def fill (r : Region) (body : List Char) : List Char :=
  r.head ++ '\n' :: body ++ '\n' :: r.tail

end Region

/-- The text with the marked region replaced. -/
def splice (tag text body : String) : Except MarkerError String := do
  let region ← Region.locate tag text.toList
  return String.ofList (region.fill body.toList)

end FolderFlow
