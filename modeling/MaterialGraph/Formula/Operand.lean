import MaterialGraph.Text.Blank

/-!
# Operands

A text of the shading language can stand next to an operator as it is when it is a name, a number,
a call, an indexing, a chain of selectors or something in brackets.  Any other text is put in
parentheses, without the white space around it.
-/

namespace MaterialGraph.Text

/-- The characters of names, numbers and selectors. -/
def isWordChar (c : Char) : Bool :=
  c.isAlphanum || c == '_' || c == '.'

/-- Whether only word characters stand outside brackets, when `depth` brackets are open already.
A closing bracket without a partner is passed over. -/
def atomicFrom (depth : Nat) : List Char → Bool
  | [] => true
  | c :: cs =>
    if c == '(' || c == '[' then atomicFrom (depth + 1) cs
    else if c == ')' || c == ']' then atomicFrom (depth - 1) cs
    else (depth != 0 || isWordChar c) && atomicFrom depth cs

/-- Whether a text without white space around it can stand next to an operator. -/
def isAtomic (cs : List Char) : Bool :=
  !cs.isEmpty && atomicFrom 0 cs

/-- A text made fit to stand next to an operator, a conditional or a selector. -/
def operand (s : String) : String :=
  let core := trim s.toList
  if isAtomic core then s else "(" ++ String.ofList core ++ ")"

end MaterialGraph.Text
