import FolderFlow.Flow.FolderSet
import FolderFlow.Json.Basic
import FolderFlow.Text.Blank
import FolderFlow.Text.Order

/-!
# Dependency flows

A flow is a list of edges between folders: the source may import from the target. An edge that is
`selfOnly` speaks for its source alone, and not for the folders from which the source is reached.
-/

namespace FolderFlow

structure EdgeOptions where
  label : Option String := none
  description : Option String := none
  selfOnly : Bool := false
  deriving DecidableEq, Repr

namespace EdgeOptions

def isEmpty (o : EdgeOptions) : Bool :=
  o.label.isNone && o.description.isNone && !o.selfOnly

/-- What a diagram writes on the edge: the label, or else the description, unless it is blank. A
blank label hides the description. -/
def diagramLabel (o : EdgeOptions) : Option String :=
  (o.label <|> o.description).filter fun text => !decide (Text.IsBlank text)

/-- Options that are not set are left out. -/
def toJson (o : EdgeOptions) : Json :=
  .ofMembers [
    ("label", o.label.map .string),
    ("description", o.description.map .string),
    ("selfOnly", if o.selfOnly then some (.bool true) else none)]

end EdgeOptions

structure Edge where
  source : String
  target : String
  options : EdgeOptions := {}
  deriving DecidableEq, Repr

namespace Edge

def isPlain (e : Edge) : Bool :=
  !e.options.selfOnly

/-- A pair, or a triple when some option is set. -/
def toJson (e : Edge) : Json :=
  .array ([.string e.source, .string e.target] ++
    if e.options.isEmpty then [] else [e.options.toJson])

/-- By source, then by target. -/
def atMost (a b : Edge) : Bool :=
  if a.source = b.source then Text.atMost a.target b.target else Text.atMost a.source b.source

end Edge

/-- Edges in the order in which they are written; repeats are allowed. -/
structure Flow where
  edges : List Edge
  deriving DecidableEq, Repr

namespace Flow

def isEmpty (flow : Flow) : Bool :=
  flow.edges.isEmpty

/-- The folders at the ends of the edges, a source before its target. -/
def endpoints (flow : Flow) : List String :=
  flow.edges.flatMap fun e => [e.source, e.target]

/-- Every folder that an edge names. -/
def folders (flow : Flow) : FolderSet :=
  .ofList flow.endpoints

/-- The edges by source and target; edges between the same folders keep their order. -/
def sortedEdges (flow : Flow) : List Edge :=
  flow.edges.mergeSort Edge.atMost

def toJson (flow : Flow) : Json :=
  .array (flow.edges.map Edge.toJson)

end Flow

end FolderFlow
