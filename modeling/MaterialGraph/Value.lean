import MaterialGraph.Number.Fixed
import MaterialGraph.Text.Lines

/-!
# Types and literals

The types a value of the shading language may have, their spellings, and literals: texts of the
language together with the type they are declared to have.
-/

namespace MaterialGraph

/-- The type of a value.  Samplers are opaque handles to textures. -/
inductive ValueType where
  | float
  | vec2
  | vec3
  | vec4
  | sampler1D
  | sampler2D
  deriving DecidableEq

/-- A text that spells no type. -/
structure UnknownType where
  text : String
  deriving DecidableEq

/-- The wording of the error. -/
def UnknownType.message (e : UnknownType) : String :=
  "unknown value type: " ++ e.text

namespace ValueType

/-- The name of a type in the shading language. -/
def name : ValueType → String
  | float => "float"
  | vec2 => "vec2"
  | vec3 => "vec3"
  | vec4 => "vec4"
  | sampler1D => "sampler1D"
  | sampler2D => "sampler2D"

/-- The spellings by which a type can be asked for: its name and the common short forms. -/
def spellings : List (String × ValueType) :=
  [("float", float), ("f32", float), ("vec2", vec2), ("vec2f", vec2), ("vec3", vec3),
    ("vec3f", vec3), ("color", vec3), ("vec4", vec4), ("vec4f", vec4),
    ("sampler1D", sampler1D), ("sampler2D", sampler2D)]

/-- The type that a text spells. -/
def parse (s : String) : Except UnknownType ValueType :=
  match spellings.lookup s with
  | some t => .ok t
  | none => .error ⟨s⟩

/-- The name of a type spells that type. -/
theorem parse_name (t : ValueType) : parse t.name = .ok t := by
  cases t <;> rfl

/-- The type of a vector with so many components. -/
def vector? : Nat → Option ValueType
  | 2 => some vec2
  | 3 => some vec3
  | 4 => some vec4
  | _ => none

end ValueType

/-- A text of the shading language and the type of the value it stands for. -/
structure Literal where
  type : ValueType
  text : String
  deriving DecidableEq

namespace Literal

/-- A number. -/
def float (x : Binary) : Literal :=
  ⟨.float, x.fixedText⟩

/-- A call of a vector constructor on texts that are already written. -/
def vector (type : ValueType) (components : List String) : Literal :=
  ⟨type, type.name ++ "(" ++ Text.separated ", " components ++ ")"⟩

/-- The vector with three equal components. -/
def splat (x : Binary) : Literal :=
  vector .vec3 [x.fixedText]

/-- The vector with the given components. -/
def vec3 (x y z : Binary) : Literal :=
  vector .vec3 [x.fixedText, y.fixedText, z.fixedText]

end Literal

end MaterialGraph
