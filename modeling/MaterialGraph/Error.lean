import MaterialGraph.Value

/-!
# Errors of graphs

What can be wrong with a material graph or with an operation on one, and the wording of each cause.
-/

namespace MaterialGraph

/-- The place of a node in its graph.  An id may lie outside a graph.  Graphs are taken to have
fewer than 2 ^ 32 nodes, so that every place fits the 32 bits which an id has room for. -/
abbrev NodeId := Nat

/-- An id as it is shown. -/
def NodeId.display (id : NodeId) : String :=
  "#" ++ Nat.repr id

/-- Why an operation on a graph failed. -/
inductive GraphError where
  | cycle (node : String)
  | typeMismatch (node socket : String) (expected found : ValueType)
  | unbound (node socket : String)
  | unknownMode (family mode : String)
  | unknownSocket (node socket : String)
  | unknownNode (id : NodeId)
  | noRoot
  | unresolved (node producer : String)
  | arity (type : String) (expected found : Nat)
  deriving DecidableEq

namespace GraphError

/-- The wording of an error. -/
def message : GraphError → String
  | cycle node => "cycle detected in material graph at node '" ++ node ++ "'"
  | typeMismatch node socket expected found =>
    "type mismatch on " ++ node ++ "." ++ socket ++ ": expected " ++ expected.name ++ ", got "
      ++ found.name
  | unbound node socket => "socket " ++ node ++ "." ++ socket ++ " has no value and no connection"
  | unknownMode family mode => "unknown " ++ family ++ " mode '" ++ mode ++ "'"
  | unknownSocket node socket => "node '" ++ node ++ "' has no socket named '" ++ socket ++ "'"
  | unknownNode id => "node " ++ NodeId.display id ++ " does not belong to this graph"
  | noRoot => "material graph has no output node"
  | unresolved node producer => "node '" ++ node ++ "' reads '" ++ producer
      ++ "' before it was generated"
  | arity type expected found => type ++ " expects " ++ Nat.repr expected ++ " inputs, got "
      ++ Nat.repr found

/-- Whether work may go on after an error: a mode that is not known can be left at its default. -/
def recoverable : GraphError → Bool
  | unknownMode _ _ => true
  | _ => false

end GraphError

end MaterialGraph
