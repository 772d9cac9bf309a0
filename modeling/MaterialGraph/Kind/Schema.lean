import MaterialGraph.Kind.Basic

/-!
# Schemas

The sockets that every node of a kind has: their names, their types, and the literals they hold
until something else is put there.
-/

namespace MaterialGraph

/-- A socket as the kind declares it.  Without a default it must be given a value or a connection
before the graph can be compiled. -/
structure SocketSpec where
  name : String
  type : ValueType
  default : Option Literal
  deriving DecidableEq

namespace SocketSpec

/-- A number socket. -/
def number (name value : String) : SocketSpec :=
  ⟨name, .float, some ⟨.float, value⟩⟩

/-- A colour or vector socket whose default has three equal components. -/
def color (name component : String) : SocketSpec :=
  ⟨name, .vec3, some (Literal.vector .vec3 [component])⟩

/-- A vector socket that reads a variable of the surrounding shader by default. -/
def ambient (name reads : String) : SocketSpec :=
  ⟨name, .vec3, some ⟨.vec3, reads⟩⟩

/-- A socket without a default. -/
def required (name : String) (type : ValueType) : SocketSpec :=
  ⟨name, type, none⟩

end SocketSpec

namespace Kind

open SocketSpec

/-- The sockets of a kind, in order. -/
def sockets : Kind → List SocketSpec
  | gamma _ => [color "Color" "1.0"]
  | hsv => [number "Hue" "0.5", number "Saturation" "1.0", number "Value" "1.0",
      number "Fac" "1.0", color "Color" "0.8"]
  | invert => [number "Fac" "1.0", color "Color" "0.0"]
  | brightContrast => [color "Color" "1.0", number "Bright" "0.0", number "Contrast" "0.0"]
  | lightFalloff _ => [number "Distance" "1.0"]
  | rgbCurves => [number "Fac" "1.0", color "Color" "1.0", required "Curve" .sampler1D]
  | mix _ => [number "Fac" "0.5", color "Color1" "0.5", color "Color2" "0.5"]
  | clamp _ => [number "Value" "1.0", number "Min" "0.0", number "Max" "1.0"]
  | colorRamp => [number "Fac" "0.5", color "Color1" "0.0", color "Color2" "1.0",
      number "Low" "0.0", number "High" "1.0"]
  | combineColor => [number "Red" "0.0", number "Green" "0.0", number "Blue" "0.0"]
  | math _ => [number "Value1" "0.5", number "Value2" "0.5"]
  | rgbToBW => [color "Color" "0.5"]
  | separateColor _ => [color "Color" "0.8"]
  | vectorMath _ => [color "Vector1" "0.0", color "Vector2" "0.0"]
  | diffuseShader => [color "Color" "0.8", ambient "Normal" "surface_normal",
      ambient "Direction" "light_direction"]
  | emission => [color "Color" "1.0", number "Strength" "1.0"]
  | materialOutput => [required "Surface" .vec3, number "Alpha" "1.0"]

/-- Every default has the type of its socket. -/
theorem default_type (k : Kind) :
    ∀ s ∈ k.sockets, ∀ l, s.default = some l → l.type = s.type := by
  cases k <;> simp [sockets, number, color, ambient, required, Literal.vector]

end Kind

end MaterialGraph
