/-!
# Options

How the body of a compiled material is written.
-/

namespace MaterialGraph

/-- How the body hands over the value of the output node. -/
inductive ResultBinding where
  /-- By a `return` statement. -/
  | returned
  /-- By an assignment to a given target. -/
  | assigned (target : String)
  /-- Not at all: the body consists of declarations. -/
  | omitted
  deriving DecidableEq

/-- What can be chosen about the text of a body: how it ends, what every line starts with, and
whether each declaration is announced by a comment with its node's name. -/
structure Options where
  result : ResultBinding := .returned
  indent : String := ""
  nodeComments : Bool := false
  deriving DecidableEq

end MaterialGraph
