import MaterialGraph.Graph.Order
import MaterialGraph.Scope

/-!
# Straight-line programs

Compiling a graph gives one assignment for each node the output depends on: a new variable gets the
node's formula applied to literals and to variables assigned before.  When a node cannot be
generated, the assignments made before it stay.
-/

namespace MaterialGraph

/-- What an assignment reads for a socket: the text of a literal, or a variable. -/
inductive Argument where
  | literal (text : String)
  | symbol (name : String)
  deriving DecidableEq

/-- An argument as it is written. -/
def Argument.text : Argument → String
  | literal text => text
  | symbol name => name

/-- The assignment of a node's value to its variable.  `code` is the expression generated from the
arguments. -/
structure Assignment where
  symbol : Symbol
  label : String
  kind : Kind
  arguments : List Argument
  code : String
  deriving DecidableEq

/-- The assignments that were made, and why there are no more if not every node could be
generated. -/
structure Emission where
  assignments : List Assignment
  failure : Option GraphError
  deriving DecidableEq

namespace Graph

/-- What a socket of a node reads, given the variables that are visible. -/
def argument (g : Graph) (table : SymbolTable) (n : Node) (s : Socket) :
    Except GraphError Argument :=
  match s.binding with
  | none => .error (.unbound n.name s.name)
  | some (.literal value) =>
    if value.type = s.type then .ok (.literal value.text)
    else .error (.typeMismatch n.name s.name s.type value.type)
  | some (.connection producer) =>
    match g.node producer with
    | .error e => .error e
    | .ok p =>
      if p.output = s.type then
        match table.lookupNode producer with
        | some symbol => .ok (.symbol symbol.name)
        | none => .error (.unresolved n.name p.name)
      else .error (.typeMismatch n.name s.name s.type p.output)

/-- What the sockets of a node read, or what is wrong with the first that cannot be read. -/
def arguments (g : Graph) (table : SymbolTable) (n : Node) :
    List Socket → Except GraphError (List Argument)
  | [] => .ok []
  | s :: ss =>
    match g.argument table n s with
    | .error e => .error e
    | .ok a =>
      match g.arguments table n ss with
      | .error e => .error e
      | .ok as => .ok (a :: as)

/-- The assignment of a node, and the table with its variable. -/
def assign (g : Graph) (table : SymbolTable) (id : NodeId) :
    Except GraphError (Assignment × SymbolTable) :=
  match g.node id with
  | .error e => .error e
  | .ok n =>
    match g.arguments table n n.sockets with
    | .error e => .error e
    | .ok arguments =>
      match n.kind.generate (arguments.map Argument.text) with
      | .error e => .error e
      | .ok code =>
        let allocation := table.allocate id n.output
        .ok (⟨allocation.1, n.name, n.kind, arguments, code⟩, allocation.2)

/-- The assignments of nodes in the given order. -/
def emit (g : Graph) (table : SymbolTable) : List NodeId → Emission
  | [] => ⟨[], none⟩
  | id :: ids =>
    match g.assign table id with
    | .error e => ⟨[], some e⟩
    | .ok (assignment, table') =>
      let rest := g.emit table' ids
      ⟨assignment :: rest.assignments, rest.failure⟩

end Graph

end MaterialGraph
