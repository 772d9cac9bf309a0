import MaterialGraph.Text.Lines

/-!
# Reports

How an error is shown: what went wrong, and below it what that was caused by.
-/

namespace MaterialGraph.CommandLine

/-- Moves the lines of a text in: the first one by `first`, the others by `further`. -/
def hanging (first further text : String) : String :=
  first ++ String.ofList (text.toList.flatMap fun c =>
    if c = '\n' then '\n' :: further.toList else [c])

/-- A number in front of a cause, which ends at the seventh column. -/
def causeNumber (n : Nat) : String :=
  let digits := Nat.repr n
  String.ofList (List.replicate (5 - digits.length) ' ') ++ digits ++ ": "

/-- Causes with their numbers, counted on from `first`. -/
def numberedCauses (first : Nat) : List String → List String
  | [] => []
  | cause :: causes =>
    hanging (causeNumber first) "       " cause :: numberedCauses (first + 1) causes

/-- The part of a report on causes.  One cause alone has no number. -/
def causesText : List String → String
  | [] => ""
  | [cause] => "\nCaused by:\n" ++ hanging "    " "    " cause ++ "\n"
  | causes => "\nCaused by:\n" ++ Text.unlines (numberedCauses 0 causes)

/-- The report on an error. -/
def report (error : String) (causes : List String) : String :=
  "Error: " ++ error ++ "\n" ++ causesText causes

end MaterialGraph.CommandLine
