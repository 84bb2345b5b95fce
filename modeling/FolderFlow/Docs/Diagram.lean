import FolderFlow.Flow.Basic

/-!
# Diagrams

A flow as a Mermaid flowchart in a fenced block, one line for each edge.
-/

namespace FolderFlow.Diagram

def edgeLine (e : Edge) : String :=
  match e.options.diagramLabel with
  | some label => "  " ++ e.source ++ " -- " ++ label ++ " --> " ++ e.target
  | none => "  " ++ e.source ++ " --> " ++ e.target

def lines (flow : Flow) : List String :=
  ["```mermaid", "flowchart TD"] ++ flow.edges.map edgeLine ++ ["```"]

def render (flow : Flow) : String :=
  "\n".intercalate (lines flow)

end FolderFlow.Diagram
