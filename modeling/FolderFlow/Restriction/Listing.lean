import FolderFlow.Json.Printer
import FolderFlow.Restriction.FlatConfig
import FolderFlow.Text.Blank
import FolderFlow.Text.Utf8

/-!
# Listings of rules

The rules of all folders as text, as JSON and as a flat linter configuration, and the short listing
that shows for each folder what it may not import.
-/

namespace FolderFlow

inductive ListingFormat where
  | text
  | json
  | eslint
  deriving DecidableEq, Repr

namespace Listing

def joinLines (lines : List String) : String :=
  "\n".intercalate lines

/-! ## Text -/

def patternLines (p : PatternRestriction) : List String :=
  ["  deny " ++ " ".intercalate p.group, "    " ++ p.message]

def pathLine (p : PathRestriction) : String :=
  match p.importNames with
  | some names => "  deny " ++ p.name ++ " \x7b " ++ commaList names ++ " \x7d"
  | none => "  deny " ++ p.name

/-- The lines of a folder, the last of them empty. -/
def folderLines (r : FolderRules) : List String :=
  [r.folder ++ " (" ++ commaList r.files ++ ")"] ++
    r.rules.patterns.flatMap patternLines ++
    r.rules.paths.map pathLine ++
    (if r.overrides.isEmpty then []
      else ["  overrides: " ++ commaList (Members.keys r.overrides)]) ++
    [""]

/-- The text ends with its last character that is no white space. -/
def text (all : List FolderRules) : String :=
  String.ofList (Text.trimEnd (joinLines (all.flatMap folderLines)).toList)

def render (all : List FolderRules) : ListingFormat → String
  | .text => text all
  | .json => (Json.array (all.map FolderRules.toJson)).pretty
  | .eslint => (FlatConfig.ofRules all).pretty

/-! ## Disallowed imports -/

/-- The largest number of bytes of a folder name. -/
def width (all : List FolderRules) : Nat :=
  all.foldl (fun w r => max w (Text.utf8Length r.folder.toList)) 0

/-- Spaces up to a number of characters. -/
def pad (width : Nat) (s : String) : String :=
  s ++ String.ofList (List.replicate (width - s.length) ' ')

def disallowedLine (width : Nat) (r : FolderRules) : String :=
  let disallowed := if r.disallowed.isEmpty then "(none)" else commaList r.disallowed
  pad width r.folder ++ "  ✗ " ++ disallowed

/-- One line for each folder; the names are padded to the width. -/
def disallowedLines (all : List FolderRules) : List String :=
  all.map (disallowedLine (width all))

end Listing

end FolderFlow
