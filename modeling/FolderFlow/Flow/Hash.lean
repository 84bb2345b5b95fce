import FolderFlow.Digest.Sha256
import FolderFlow.Flow.Basic
import FolderFlow.Json.Printer

/-!
# The hash of a flow

A flow is hashed by way of the compact JSON text of its sorted edges, so that the order in which
edges between different folders are written does not matter.
-/

namespace FolderFlow.Flow

/-- The text that is hashed. -/
def canonicalText (flow : Flow) : String :=
  (Json.array (flow.sortedEdges.map Edge.toJson)).render

/-- The SHA-256 digest of the canonical text, as lower-case hexadecimal digits. -/
def hash (flow : Flow) : String :=
  String.ofList (Sha256.digest flow.canonicalText.toUTF8.toList).hex

end FolderFlow.Flow
