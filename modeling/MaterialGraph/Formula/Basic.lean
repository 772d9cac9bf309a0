import MaterialGraph.Formula.Operand
import MaterialGraph.Text.Lines

/-!
# Formulas

A formula is an expression of the shading language with holes for the inputs of a node.  Its text
has parentheses just where the binding strength of the operators asks for them.  A hole can be
filled in two ways: as an operand, which is safe next to an operator, or with the input as it
stands, which is safe only between the commas of a call and is parenthesised anywhere else.
-/

namespace MaterialGraph

/-- The infix operators that formulas use. -/
inductive Operator where
  | equal
  | add
  | subtract
  | multiply
  | divide
  deriving DecidableEq

/-- How an operator is written. -/
def Operator.symbol : Operator → String
  | equal => "=="
  | add => "+"
  | subtract => "-"
  | multiply => "*"
  | divide => "/"

/-- How strongly an operator binds. -/
def Operator.strength : Operator → Nat
  | equal => 1
  | add | subtract => 2
  | multiply | divide => 3

/-- An expression with holes, which are named after the sockets that fill them. -/
inductive Formula where
  /-- The input of a socket as it stands. -/
  | input (socket : String)
  /-- The input of a socket as an operand. -/
  | operand (socket : String)
  /-- A number. -/
  | number (text : String)
  /-- A vector of numbers, written without blanks. -/
  | vector (type : String) (components : List String)
  | call (function : String) (arguments : List Formula)
  | member (base : Formula) (selector : String)
  | infixed (operator : Operator) (left right : Formula)
  | conditional (condition yes no : Formula)

namespace Formula

instance : Add Formula := ⟨infixed .add⟩
instance : Sub Formula := ⟨infixed .subtract⟩
instance : Mul Formula := ⟨infixed .multiply⟩
instance : Div Formula := ⟨infixed .divide⟩

/-- The binding strength of what nothing can tear apart: names, numbers, calls and selections. -/
def tight : Nat := 4

/-- How strongly the outermost part of a formula holds together. -/
def strength : Formula → Nat
  | input _ => 0
  | conditional _ _ _ => 0
  | infixed operator _ _ => operator.strength
  | _ => tight

/-- A text in parentheses if what it is the text of binds less strongly than its place asks. -/
def bracketed (place : Nat) (f : Formula) (text : String) : String :=
  if f.strength < place then "(" ++ text ++ ")" else text

mutual

/-- The text of a formula, given the inputs by socket name.  Operators of one strength group to
the left. -/
def text (inputs : String → String) : Formula → String
  | input socket => inputs socket
  | operand socket => Text.operand (inputs socket)
  | number digits => digits
  | vector type components => type ++ "(" ++ Text.separated "," components ++ ")"
  | call function arguments => function ++ "(" ++ argumentText inputs arguments ++ ")"
  | member base selector => bracketed tight base (text inputs base) ++ "." ++ selector
  | infixed operator left right =>
    bracketed operator.strength left (text inputs left) ++ " " ++ operator.symbol ++ " "
      ++ bracketed (operator.strength + 1) right (text inputs right)
  | conditional condition yes no =>
    bracketed 1 condition (text inputs condition) ++ " ? " ++ text inputs yes ++ " : "
      ++ text inputs no

/-- The text between the parentheses of a call. -/
def argumentText (inputs : String → String) : List Formula → String
  | [] => ""
  | [argument] => text inputs argument
  | argument :: arguments => text inputs argument ++ ", " ++ argumentText inputs arguments

end

/-- The text of a formula such that it can stand anywhere in an expression. -/
def spliced (inputs : String → String) (f : Formula) : String :=
  bracketed tight f (text inputs f)

end Formula

end MaterialGraph
