import MaterialGraph.Json.Value
import MaterialGraph.Options.Basic

/-!
# Documents

A material as it is authored: nodes with ids of the author's choosing, what their sockets are
linked to or hold, and the id of the node whose value the material produces.
-/

namespace MaterialGraph.Document

/-- What is said about a document as a whole. -/
structure Metadata where
  name : String := ""
  created : Option String := none
  modified : Option String := none

/-- What a document puts on a socket: a link to the node with an id, or a value, for which a type
may be stated. -/
inductive Input where
  | link (id : String)
  | value (value : Json.Value) (type : Option String)

/-- A node of a document.  The inputs are sorted by socket name; sockets without an input keep
their defaults. -/
structure Node where
  id : String
  type : String
  mode : Option String
  inputs : List (String × Input)

end MaterialGraph.Document

namespace MaterialGraph

/-- A document. -/
structure Document where
  version : String
  metadata : Document.Metadata
  nodes : List Document.Node
  output : String
  options : Option Options

end MaterialGraph
