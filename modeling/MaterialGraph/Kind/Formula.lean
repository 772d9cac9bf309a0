import MaterialGraph.Formula.Basic
import MaterialGraph.Kind.Schema

/-!
# What each kind computes

The formula of every kind in every mode, and the expression a node generates from the texts of its
inputs.
-/

namespace MaterialGraph

namespace Kind

open Formula

/-- A vector with three equal components, as an expression. -/
def vec3 (component : Formula) : Formula :=
  call "vec3" [component]

/-- White. -/
def white : Formula :=
  vec3 (number "1.0")

/-- The curve that a channel of a colour is looked up in, and the channel of what is found. -/
def curved (channel : Channel) : Formula :=
  member (call "texture" [input "Curve", member (operand "Color") channel.selector])
    channel.selector

/-- The formula of a kind. -/
def formula : Kind → Formula
  | gamma .linearToSRGB => call "pow" [input "Color", vec3 (number "1.0" / number "2.2")]
  | gamma .srgbToLinear => call "pow" [input "Color", vec3 (number "2.2")]
  | hsv =>
    let converted := call "rgb2hsv" [input "Color"]
    call "mix"
      [input "Color",
        call "hsv2rgb"
          [call "vec3"
            [call "fract" [member converted "x" + operand "Hue" + number "0.5"],
              call "clamp"
                [member converted "y" * operand "Saturation", number "0.0", number "1.0"],
              member converted "z" * operand "Value"]],
        input "Fac"]
  | invert => call "mix" [input "Color", white - operand "Color", input "Fac"]
  | brightContrast =>
    call "max"
      [(number "1.0" + operand "Contrast") * operand "Color"
          + vec3 (operand "Bright" - operand "Contrast" * number "0.5"),
        vec3 (number "0.0")]
  | lightFalloff .quadratic => number "1.0" / (operand "Distance" * operand "Distance")
  | lightFalloff .linear => number "1.0" / operand "Distance"
  | lightFalloff .constant => number "1.0"
  | rgbCurves =>
    call "mix"
      [input "Color", call "vec3" [curved .red, curved .green, curved .blue], input "Fac"]
  | mix .mix => call "mix" [input "Color1", input "Color2", input "Fac"]
  | mix .add => operand "Color1" + operand "Color2"
  | mix .multiply => operand "Color1" * operand "Color2"
  | mix .screen => white - (white - operand "Color1") * (white - operand "Color2")
  | mix .subtract => operand "Color1" - operand "Color2"
  | clamp .minMax => call "clamp" [input "Value", input "Min", input "Max"]
  | clamp .minOnly => call "max" [input "Value", input "Min"]
  | clamp .maxOnly => call "min" [input "Value", input "Max"]
  | colorRamp =>
    call "mix"
      [input "Color1", input "Color2",
        (call "clamp" [input "Fac", input "Low", input "High"] - operand "Low")
          / call "max" [operand "High" - operand "Low", number "0.00001"]]
  | combineColor => call "vec3" [input "Red", input "Green", input "Blue"]
  | math .add => operand "Value1" + operand "Value2"
  | math .subtract => operand "Value1" - operand "Value2"
  | math .multiply => operand "Value1" * operand "Value2"
  | math .divide =>
    conditional (infixed .equal (operand "Value2") (number "0.0")) (number "0.0")
      (operand "Value1" / operand "Value2")
  | math .power => call "pow" [input "Value1", input "Value2"]
  | math .modulo => call "mod" [input "Value1", input "Value2"]
  | math .minimum => call "min" [input "Value1", input "Value2"]
  | math .maximum => call "max" [input "Value1", input "Value2"]
  | rgbToBW => call "dot" [input "Color", vector "vec3" ["0.2126", "0.7152", "0.0722"]]
  | separateColor channel => member (input "Color") channel.selector
  | vectorMath .add => operand "Vector1" + operand "Vector2"
  | vectorMath .subtract => operand "Vector1" - operand "Vector2"
  | vectorMath .crossProduct => call "cross" [input "Vector1", input "Vector2"]
  | vectorMath .dotProduct => vec3 (call "dot" [input "Vector1", input "Vector2"])
  | vectorMath .normalize => call "normalize" [input "Vector1"]
  | diffuseShader => call "LambertianBRDF" [input "Normal", input "Direction", input "Color"]
  | emission => operand "Color" * operand "Strength"
  | materialOutput => call "vec4" [input "Surface", input "Alpha"]

/-- The input that a list of texts, one for each socket in order, gives to a socket. -/
def inputOf (k : Kind) (inputs : List String) (socket : String) : String :=
  (((k.sockets.map SocketSpec.name).zip inputs).lookup socket).getD ""

/-- The expression that a node of this kind generates from one text for each of its sockets. -/
def generate (k : Kind) (inputs : List String) : Except GraphError String :=
  if inputs.length = k.sockets.length then .ok (k.formula.spliced (k.inputOf inputs))
  else .error (.arity k.typeName k.sockets.length inputs.length)

end Kind

end MaterialGraph
