import MaterialGraph.Json.Printer
import MaterialGraph.Text.Blank
import MaterialGraph.Value

/-!
# Values as literals

What a JSON value on a socket is in the shading language.  A number is a `float` and an array of
two to four numbers a vector, so they bring their type along; a string is a text of the language
and may be of any type.
-/

namespace MaterialGraph.Document

/-- Why a value is no literal. -/
inductive LiteralError where
  | component
  | length (n : Nat)
  | unsupported (value : Json.Value)

/-- The wording of the error. -/
def LiteralError.message : LiteralError → String
  | component => "vector components must be numbers"
  | length n => "vector literal must have 2 to 4 components, got " ++ Nat.repr n
  | unsupported value => "unsupported literal: " ++ value.text

/-- A text of the shading language, with its type if that can be seen from the value it was
written for. -/
structure Written where
  type : Option ValueType
  text : String

namespace Written

/-- A number as it is written in the shading language, which has single precision. -/
def number (n : Json.Number) : String :=
  (Binary.convert Binary.single n.toDouble).fixedText

/-- The components of a vector. -/
def components : List Json.Value → Except LiteralError (List String)
  | [] => .ok []
  | .number n :: vs => (components vs).map (number n :: ·)
  | _ :: _ => .error .component

/-- The vector with the given components. -/
def vector (parts : List String) : Except LiteralError Written :=
  match ValueType.vector? parts.length with
  | some type => .ok ⟨some type, (Literal.vector type parts).text⟩
  | none => .error (.length parts.length)

/-- What is written for a value. -/
def ofValue : Json.Value → Except LiteralError Written
  | .string s =>
    if Text.allBlank s.toList then .error (.unsupported (.string s)) else .ok ⟨none, s⟩
  | .number n => .ok ⟨some .float, number n⟩
  | .array vs =>
    match components vs with
    | .ok parts => vector parts
    | .error e => .error e
  | v => .error (.unsupported v)

end Written

end MaterialGraph.Document
