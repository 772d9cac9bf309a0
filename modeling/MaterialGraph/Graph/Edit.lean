import MaterialGraph.Graph.Basic

/-!
# Building graphs

The operations by which graphs are made.  Each one either leaves the graph as it was and says why,
or changes one thing: it adds a node, binds one socket, or points out the output node.
-/

namespace MaterialGraph

/-- The sockets after the first one with the given name has been bound anew. -/
def Socket.rebind (name : String) (binding : Option Binding) : List Socket → List Socket
  | [] => []
  | s :: ss =>
    if s.name == name then { s with binding := binding } :: ss else s :: rebind name binding ss

namespace Node

/-- The node after a socket has been bound anew. -/
def bind (n : Node) (socket : String) (binding : Option Binding) : Node :=
  { n with sockets := Socket.rebind socket binding n.sockets }

/-- Put a literal on a socket.  It must have the socket's type. -/
def setValue (n : Node) (socket : String) (value : Literal) : Except GraphError Node :=
  match n.socket? socket with
  | none => .error (.unknownSocket n.name socket)
  | some s =>
    if s.type = value.type then .ok (n.bind socket (some (.literal value)))
    else .error (.typeMismatch n.name socket s.type value.type)

/-- Connect a socket to a producer, whatever the producer is. -/
def connect (n : Node) (socket : String) (producer : NodeId) : Except GraphError Node :=
  match n.socket? socket with
  | none => .error (.unknownSocket n.name socket)
  | some _ => .ok (n.bind socket (some (.connection producer)))

/-- Give a socket back the default that the node's kind declares for it. -/
def disconnect (n : Node) (socket : String) : Except GraphError Node :=
  match n.socket? socket with
  | none => .error (.unknownSocket n.name socket)
  | some _ =>
    let spec := n.kind.sockets.find? fun s => s.name == socket
    .ok (n.bind socket ((spec.bind SocketSpec.default).map .literal))

end Node

namespace Graph

/-- Add a node at the end.  Its id is the number of nodes before. -/
def add (g : Graph) (n : Node) : Graph :=
  { g with nodes := g.nodes ++ [n] }

/-- Change the node with the given id. -/
def update (g : Graph) (id : NodeId) (change : Node → Except GraphError Node) :
    Except GraphError Graph :=
  match g.node id with
  | .error e => .error e
  | .ok n =>
    match change n with
    | .error e => .error e
    | .ok n' => .ok { g with nodes := g.nodes.set id n' }

/-- Connect a socket of a node to another node of the graph. -/
def connect (g : Graph) (consumer : NodeId) (socket : String) (producer : NodeId) :
    Except GraphError Graph :=
  match g.node producer with
  | .error e => .error e
  | .ok _ => g.update consumer fun n => n.connect socket producer

/-- Connect a socket of a node to an id that is not looked at. -/
def attach (g : Graph) (consumer : NodeId) (socket : String) (producer : NodeId) :
    Except GraphError Graph :=
  g.update consumer fun n => n.connect socket producer

/-- Give a socket back its default. -/
def disconnect (g : Graph) (id : NodeId) (socket : String) : Except GraphError Graph :=
  g.update id fun n => n.disconnect socket

/-- Put a literal on a socket. -/
def setValue (g : Graph) (id : NodeId) (socket : String) (value : Literal) :
    Except GraphError Graph :=
  g.update id fun n => n.setValue socket value

/-- Point out the output node. -/
def setRoot (g : Graph) (id : NodeId) : Except GraphError Graph :=
  match g.node id with
  | .error e => .error e
  | .ok _ => .ok { g with root := some id }

end Graph

end MaterialGraph
