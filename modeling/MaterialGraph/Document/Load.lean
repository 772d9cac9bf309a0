import MaterialGraph.Document.Json
import MaterialGraph.Document.Literal
import MaterialGraph.Graph.Edit

/-!
# Loading documents

A document becomes a graph in two passes.  The first makes a node of every node of the document,
at the same place; a mode that its kind does not have is left at the default with a warning.  The
second binds the sockets that have inputs.  Everything else that is wrong with a document makes
loading fail.
-/

namespace MaterialGraph

/-- A loaded material: its name, its graph and the options it asks for. -/
structure Material where
  name : String
  graph : Graph
  options : Options
  deriving DecidableEq

namespace Document

/-- A mode that was not known to the kind of its node. -/
structure Warning where
  node : String
  kind : Kind
  mode : String
  deriving DecidableEq

/-- The wording of a warning: the mode that is refused, and the one that is used instead. -/
def Warning.message (w : Warning) : String :=
  (GraphError.unknownMode w.kind.typeName w.mode).message ++ "; using "
    ++ w.kind.modeName?.getD (w.kind.typeName ++ " without a mode")

/-- Why a document cannot be loaded. -/
inductive LoadError where
  | unsupportedType (type : String)
  | duplicateId (id : String)
  | missingLink (node socket target : String)
  | noSocket (node socket : String)
  | unknownType (node socket : String) (e : UnknownType)
  | invalidValue (node socket : String) (e : LiteralError)
  | contradicted (node socket : String) (type annotated : ValueType)
  | graph (e : GraphError)
  | missingOutput (id : String)

/-- The wording of the error: what went wrong and, after it, what that was caused by. -/
def LoadError.causes : LoadError → List String
  | unsupportedType type => ["unsupported material node type: " ++ type]
  | duplicateId id => ["duplicate node id: " ++ id]
  | missingLink node socket target =>
    [node ++ "." ++ socket ++ " links to missing node: " ++ target]
  | noSocket node socket => ["node " ++ node ++ " has no socket " ++ socket]
  | unknownType node socket e => [node ++ "." ++ socket ++ ": " ++ e.message]
  | invalidValue node socket e => ["invalid value for " ++ node ++ "." ++ socket, e.message]
  | contradicted node socket type annotated =>
    [node ++ "." ++ socket ++ ": " ++ type.name ++ " value annotated as " ++ annotated.name]
  | graph e => [e.message]
  | missingOutput id => ["output references missing node: " ++ id]

/-! ### Nodes -/

/-- The kind of a node, and the warning if its mode was not known.  Only errors that work may go on
after become warnings. -/
def Node.resolve (n : Node) : Except LoadError (Kind × Option Warning) :=
  match Kind.ofTypeName? n.type with
  | none => .error (.unsupportedType n.type)
  | some kind =>
    match n.mode with
    | none => .ok (kind, none)
    | some mode =>
      match kind.withMode mode with
      | .ok kind => .ok (kind, none)
      | .error e =>
        if e.recoverable then .ok (kind, some ⟨n.id, kind, mode⟩) else .error (.graph e)

/-- The nodes of a graph for the nodes of a document, with the warnings up to the first error.
The ids in `seen` are taken. -/
def resolveAll (seen : List String) :
    List Node → List Warning × Except LoadError (List MaterialGraph.Node)
  | [] => ([], .ok [])
  | n :: ns =>
    match n.resolve with
    | .error e => ([], .error e)
    | .ok (kind, warning) =>
      if seen.contains n.id then (warning.toList, .error (.duplicateId n.id))
      else
        let (warnings, nodes) := resolveAll (n.id :: seen) ns
        (warning.toList ++ warnings, nodes.map (MaterialGraph.Node.new n.id kind :: ·))

/-! ### Inputs -/

/-- The place of the node with the given id. -/
def find? (d : Document) (id : String) : Option NodeId :=
  d.nodes.findIdx? fun n => n.id == id

/-- The type that an annotation spells, if there is one. -/
def annotatedType (node socket : String) : Option String → Except LoadError (Option ValueType)
  | none => .ok none
  | some s =>
    match ValueType.parse s with
    | .ok type => .ok (some type)
    | .error e => .error (.unknownType node socket e)

/-- The literal for a value on a socket of the type `declared`.  The type that a value brings
along must not be contradicted; a value without one takes the annotated or the declared type. -/
def literal (node socket : String) (declared : ValueType) (annotated : Option ValueType)
    (value : Json.Value) : Except LoadError Literal :=
  match Written.ofValue value with
  | .error e => .error (.invalidValue node socket e)
  | .ok ⟨none, text⟩ => .ok ⟨annotated.getD declared, text⟩
  | .ok ⟨some type, text⟩ =>
    match annotated with
    | none => .ok ⟨type, text⟩
    | some t => if type = t then .ok ⟨type, text⟩ else .error (.contradicted node socket type t)

/-- A result of an operation on the graph. -/
def onGraph {α : Type} : Except GraphError α → Except LoadError α
  | .ok a => .ok a
  | .error e => .error (.graph e)

/-- Binds a socket of the node at `consumer`, which is called `node`. -/
def bindInput (d : Document) (node : String) (consumer : NodeId) (g : Graph) (socket : String) :
    Input → Except LoadError Graph
  | .link id =>
    match d.find? id with
    | none => .error (.missingLink node socket id)
    | some producer => onGraph (g.connect consumer socket producer)
  | .value value type => do
    let n ← onGraph (g.node consumer)
    match n.socket? socket with
    | none => .error (.noSocket node socket)
    | some s =>
      let annotated ← annotatedType node socket type
      let literal ← literal node socket s.type annotated value
      onGraph (g.setValue consumer socket literal)

/-- Binds sockets of the node at `consumer`, one after the other. -/
def bindInputs (d : Document) (node : String) (consumer : NodeId) :
    List (String × Input) → Graph → Except LoadError Graph
  | [], g => .ok g
  | (socket, input) :: inputs, g => do
    let g ← d.bindInput node consumer g socket input
    d.bindInputs node consumer inputs g

/-- Binds the sockets of nodes, the first of which is at `first`. -/
def bindAll (d : Document) (first : NodeId) : List Node → Graph → Except LoadError Graph
  | [], g => .ok g
  | n :: ns, g => do
    let g ← d.bindInputs n.id first n.inputs g
    d.bindAll (first + 1) ns g

/-! ### Materials -/

/-- The graph of a document whose nodes have been made. -/
def graphOf (d : Document) (nodes : List MaterialGraph.Node) : Except LoadError Graph := do
  let g ← d.bindAll 0 d.nodes ⟨nodes, none⟩
  match d.find? d.output with
  | none => .error (.missingOutput d.output)
  | some root => onGraph (g.setRoot root)

/-- The outcome of loading: a material or the first error, and the warnings given on the way. -/
structure Loading where
  result : Except LoadError Material
  warnings : List Warning

/-- Load a document. -/
def load (d : Document) : Loading :=
  let (warnings, nodes) := resolveAll [] d.nodes
  { result := do
      let nodes ← nodes
      let graph ← d.graphOf nodes
      return ⟨d.metadata.name, graph, d.options.getD {}⟩
    warnings := warnings }

end Document

end MaterialGraph
