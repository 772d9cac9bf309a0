import MaterialGraph.Kind.Formula

/-!
# Material graphs

A graph keeps its nodes in a row and points out one of them as its output.  A socket of a node
holds a literal or is connected to the node that produces its value, which it names by id, so a
connection may lead anywhere: to a later node, back to its own node, or out of the graph.
-/

namespace MaterialGraph

/-- What a socket gets its value from. -/
inductive Binding where
  | literal (value : Literal)
  | connection (producer : NodeId)
  deriving DecidableEq

/-- A socket of a node. -/
structure Socket where
  name : String
  type : ValueType
  binding : Option Binding
  deriving DecidableEq

namespace Socket

/-- The socket of a new node: it holds its default. -/
def ofSpec (spec : SocketSpec) : Socket :=
  ⟨spec.name, spec.type, spec.default.map .literal⟩

/-- The node that a socket is connected to. -/
def producer? (s : Socket) : Option NodeId :=
  match s.binding with
  | some (.connection producer) => some producer
  | _ => none

end Socket

/-- A node: its name, what it does, and its sockets in the order of the schema. -/
structure Node where
  name : String
  kind : Kind
  sockets : List Socket
  deriving DecidableEq

namespace Node

/-- A node whose sockets hold their defaults. -/
def new (name : String) (kind : Kind) : Node :=
  ⟨name, kind, kind.sockets.map Socket.ofSpec⟩

/-- The type of the value that a node produces. -/
def output (n : Node) : ValueType :=
  n.kind.output

/-- The socket with the given name. -/
def socket? (n : Node) (name : String) : Option Socket :=
  n.sockets.find? fun s => s.name == name

/-- The nodes that a node is connected to, in the order of its sockets. -/
def producers (n : Node) : List NodeId :=
  n.sockets.filterMap Socket.producer?

end Node

/-- Nodes in a row, and the id of the one whose value the material produces. -/
structure Graph where
  nodes : List Node
  root : Option NodeId
  deriving DecidableEq

namespace Graph

/-- The graph without nodes. -/
def empty : Graph := ⟨[], none⟩

/-- The node with the given id. -/
def node (g : Graph) (id : NodeId) : Except GraphError Node :=
  match g.nodes[id]? with
  | some n => .ok n
  | none => .error (.unknownNode id)

/-- The producers of the node with the given id; none for an id outside the graph. -/
def producersOf (g : Graph) (id : NodeId) : List NodeId :=
  match g.nodes[id]? with
  | some n => n.producers
  | none => []

/-- The first node with the given name. -/
def find? (g : Graph) (name : String) : Option NodeId :=
  g.nodes.findIdx? fun n => n.name == name

end Graph

end MaterialGraph
