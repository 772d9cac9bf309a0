import MaterialGraph.Text.Lines

/-!
# Listings

A source with numbered lines, for reports on sources that were refused.
-/

namespace MaterialGraph.Shader

/-- A number with blanks in front of it up to a width of four. -/
def lineNumber (n : Nat) : String :=
  let digits := Nat.repr n
  String.ofList (List.replicate (4 - digits.length) ' ') ++ digits

/-- Lines with their numbers, counted on from `first`. -/
def numbered (first : Nat) : List String → List String
  | [] => []
  | line :: lines => (lineNumber first ++ " | " ++ line) :: numbered (first + 1) lines

/-- The listing of a source. -/
def listing (source : String) : String :=
  "Generated source:\n---\n" ++ Text.unlines (numbered 1 (Text.lines source)) ++ "---\n"

/-- What is said about the origin of a source that was refused. -/
def refusal (origin : String) : String :=
  origin ++ " generated invalid GLSL"

end MaterialGraph.Shader
