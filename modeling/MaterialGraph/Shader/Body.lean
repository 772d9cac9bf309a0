import MaterialGraph.Options.Basic
import MaterialGraph.Shader.Program

/-!
# Compiled shaders

The text of a straight-line program: a declaration for each assignment and, if the options ask for
it, a last line that hands over the value of the output node.
-/

namespace MaterialGraph

/-- A compiled material: the text of its body, the variable that holds its value, and the
declarations and variables of its nodes in order. -/
structure Shader where
  source : String
  result : Symbol
  statements : List String
  bindings : List (NodeId × Symbol)
  deriving DecidableEq

namespace Assignment

/-- The declaration of the variable, after the comment if comments are asked for. -/
def statement (a : Assignment) (nodeComments : Bool) : String :=
  let comment := if nodeComments then "// " ++ a.label ++ "\n" else ""
  comment ++ a.symbol.type.name ++ " " ++ a.symbol.name ++ " = " ++ a.code ++ ";"

end Assignment

/-- The last line of a body without its indent, if there is one. -/
def ResultBinding.line : ResultBinding → String → Option String
  | returned, result => some ("return " ++ result ++ ";")
  | assigned target, result => some (target ++ " = " ++ result ++ ";")
  | omitted, _ => none

namespace Shader

/-- The text of a body: the lines of the statements and the last line, each after the indent. -/
def body (options : Options) (statements : List String) (result : String) : String :=
  let declarations := (statements.flatMap Text.lines).map (options.indent ++ ·)
  let last := (options.result.line result).toList.map (options.indent ++ ·)
  Text.unlines (declarations ++ last)

/-- The shader of a program whose value is in `result`. -/
def ofProgram (options : Options) (program : List Assignment) (result : Symbol) : Shader :=
  let statements := program.map (Assignment.statement · options.nodeComments)
  { source := body options statements result.name
    result := result
    statements := statements
    bindings := program.map fun a => (a.symbol.node, a.symbol) }

/-- The variable of a node, if the shader depends on that node. -/
def symbolOf? (s : Shader) (node : NodeId) : Option Symbol :=
  s.bindings.lookup node

end Shader

/-- The outcome of compiling: a shader or the first error, and how many variables were handed
out. -/
structure Outcome where
  result : Except GraphError Shader
  allocated : Nat

namespace Graph

/-- The name of a node, or its id for one outside the graph. -/
def label (g : Graph) (id : NodeId) : String :=
  match g.nodes[id]? with
  | some n => n.name
  | none => NodeId.display id

/-- The shader of a finished program. -/
def shader (g : Graph) (options : Options) (program : List Assignment) :
    Except GraphError Shader :=
  match g.root with
  | none => .error .noRoot
  | some root =>
    match program.find? fun a => a.symbol.node == root with
    | some a => .ok (Shader.ofProgram options program a.symbol)
    | none => .error (.unresolved "<output>" (g.label root))

/-- Compile a graph. -/
def compile (g : Graph) (options : Options) : Outcome :=
  match g.evaluate with
  | .error e => ⟨.error e, 0⟩
  | .ok order =>
    let emission := g.emit SymbolTable.empty.push order
    match emission.failure with
    | some e => ⟨.error e, emission.assignments.length⟩
    | none => ⟨g.shader options emission.assignments, emission.assignments.length⟩

end Graph

end MaterialGraph
