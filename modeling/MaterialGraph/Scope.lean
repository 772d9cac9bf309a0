import MaterialGraph.Error

/-!
# Scopes

A generated variable is named after its type and a running number.  Names are handed out in nested
scopes: a new scope goes on with the numbers of the one around it, so that a name is never given
twice while the first is visible, and closing a scope forgets its variables and its numbers.
-/

namespace MaterialGraph

/-- A generated variable that holds the output of a node. -/
structure Symbol where
  type : ValueType
  name : String
  node : NodeId
  deriving DecidableEq

/-- The next number to be used for each type. -/
structure Counters where
  float : Nat := 0
  vec2 : Nat := 0
  vec3 : Nat := 0
  vec4 : Nat := 0
  sampler1D : Nat := 0
  sampler2D : Nat := 0
  deriving DecidableEq

namespace Counters

/-- The next number of a type. -/
def get (c : Counters) : ValueType → Nat
  | .float => c.float
  | .vec2 => c.vec2
  | .vec3 => c.vec3
  | .vec4 => c.vec4
  | .sampler1D => c.sampler1D
  | .sampler2D => c.sampler2D

/-- The counters after a number of a type has been used. -/
def bump (c : Counters) : ValueType → Counters
  | .float => { c with float := c.float + 1 }
  | .vec2 => { c with vec2 := c.vec2 + 1 }
  | .vec3 => { c with vec3 := c.vec3 + 1 }
  | .vec4 => { c with vec4 := c.vec4 + 1 }
  | .sampler1D => { c with sampler1D := c.sampler1D + 1 }
  | .sampler2D => { c with sampler2D := c.sampler2D + 1 }

/-- Only the number of the type that was used goes up. -/
@[simp] theorem get_bump (c : Counters) (t u : ValueType) :
    (c.bump t).get u = c.get u + if u = t then 1 else 0 := by
  cases t <;> cases u <;> rfl

end Counters

/-- A scope: its variables, the latest first, and the numbers to go on with. -/
structure Scope where
  symbols : List Symbol
  counters : Counters
  deriving DecidableEq

/-- The open scopes, the innermost first. -/
structure SymbolTable where
  scopes : List Scope
  deriving DecidableEq

namespace SymbolTable

/-- The table without scopes. -/
def empty : SymbolTable := ⟨[]⟩

/-- The numbers that a new variable or scope goes on with. -/
def counters (t : SymbolTable) : Counters :=
  match t.scopes with
  | [] => {}
  | scope :: _ => scope.counters

/-- Open a scope. -/
def push (t : SymbolTable) : SymbolTable :=
  ⟨⟨[], t.counters⟩ :: t.scopes⟩

/-- Close the innermost scope, if there is one. -/
def pop (t : SymbolTable) : SymbolTable :=
  ⟨t.scopes.tail⟩

/-- How many scopes are open. -/
def depth (t : SymbolTable) : Nat :=
  t.scopes.length

/-- The visible variables, those of inner scopes first, in each scope the latest first. -/
def visible (t : SymbolTable) : List Symbol :=
  t.scopes.flatMap Scope.symbols

/-- How many variables are visible. -/
def size (t : SymbolTable) : Nat :=
  t.visible.length

/-- The name of the variable of a type with a given number. -/
def nameOf (type : ValueType) (number : Nat) : String :=
  type.name ++ "_" ++ Nat.repr number

/-- A new variable for a node in the innermost scope; without a scope, one is opened first. -/
def allocate (t : SymbolTable) (node : NodeId) (type : ValueType) : Symbol × SymbolTable :=
  let symbol : Symbol := ⟨type, nameOf type (t.counters.get type), node⟩
  let next := t.counters.bump type
  match t.scopes with
  | [] => (symbol, ⟨[⟨[symbol], next⟩]⟩)
  | scope :: outer => (symbol, ⟨⟨symbol :: scope.symbols, next⟩ :: outer⟩)

/-- The visible variable with the given name. -/
def lookup (t : SymbolTable) (name : String) : Option Symbol :=
  t.scopes.findSome? fun scope => scope.symbols.find? fun s => s.name == name

/-- The latest variable of a node in the innermost scope that has one. -/
def lookupNode (t : SymbolTable) (node : NodeId) : Option Symbol :=
  t.scopes.findSome? fun scope => scope.symbols.find? fun s => s.node == node

end SymbolTable

end MaterialGraph
