import MaterialGraph.Error
import MaterialGraph.Mode

/-!
# Kinds of node

The kinds a node can be of, their names in documents, and how a kind takes a mode.
-/

namespace MaterialGraph

/-- What a node does, with its mode where it has one. -/
inductive Kind where
  | gamma (mode : GammaMode)
  | hsv
  | invert
  | brightContrast
  | lightFalloff (mode : FalloffMode)
  | rgbCurves
  | mix (mode : MixMode)
  | clamp (mode : ClampMode)
  | colorRamp
  | combineColor
  | math (mode : MathMode)
  | rgbToBW
  | separateColor (channel : Channel)
  | vectorMath (mode : VectorMode)
  | diffuseShader
  | emission
  | materialOutput
  deriving DecidableEq

/-- The groups that kinds are shown in. -/
inductive Category where
  | color
  | converter
  | shader
  | output
  deriving DecidableEq

/-- The heading of a group. -/
def Category.name : Category → String
  | color => "Color"
  | converter => "Converter"
  | shader => "Shader"
  | output => "Output"

namespace Kind

/-- Every kind once, in the order of the catalog, each with its standard mode. -/
def catalog : List Kind :=
  [gamma Mode.standard, hsv, invert, brightContrast, lightFalloff Mode.standard, rgbCurves,
    mix Mode.standard, clamp Mode.standard, colorRamp, combineColor, math Mode.standard, rgbToBW,
    separateColor Mode.standard, vectorMath Mode.standard, diffuseShader, emission, materialOutput]

/-- The name of a kind in documents. -/
def typeName : Kind → String
  | gamma _ => "Gamma"
  | hsv => "HSV"
  | invert => "Invert"
  | brightContrast => "BrightContrast"
  | lightFalloff _ => "LightFalloff"
  | rgbCurves => "RGBCurves"
  | mix _ => "Mix"
  | clamp _ => "Clamp"
  | colorRamp => "ColorRamp"
  | combineColor => "CombineColor"
  | math _ => "Math"
  | rgbToBW => "RGBToBW"
  | separateColor _ => "SeparateColor"
  | vectorMath _ => "VectorMath"
  | diffuseShader => "DiffuseShader"
  | emission => "Emission"
  | materialOutput => "MaterialOutput"

/-- The kind with the given name, in its standard mode. -/
def ofTypeName? (name : String) : Option Kind :=
  catalog.find? fun k => k.typeName == name

/-- The name of a kind's mode, if it has one. -/
def modeName? : Kind → Option String
  | gamma m => some (Mode.name m)
  | lightFalloff m => some (Mode.name m)
  | mix m => some (Mode.name m)
  | clamp m => some (Mode.name m)
  | math m => some (Mode.name m)
  | separateColor m => some (Mode.name m)
  | vectorMath m => some (Mode.name m)
  | _ => none

/-- The mode of a family with the given name; `family` is for the error. -/
def readMode (α : Type) [Mode α] (family name : String) : Except GraphError α :=
  match Mode.ofName? α name with
  | some m => .ok m
  | none => .error (.unknownMode family name)

/-- The kind with another mode of its family.  A kind without modes refuses every name. -/
def withMode (k : Kind) (name : String) : Except GraphError Kind :=
  match k with
  | gamma _ => (readMode GammaMode k.typeName name).map gamma
  | lightFalloff _ => (readMode FalloffMode k.typeName name).map lightFalloff
  | mix _ => (readMode MixMode k.typeName name).map mix
  | clamp _ => (readMode ClampMode k.typeName name).map clamp
  | math _ => (readMode MathMode k.typeName name).map math
  | separateColor _ => (readMode Channel k.typeName name).map separateColor
  | vectorMath _ => (readMode VectorMode k.typeName name).map vectorMath
  | _ => .error (.unknownMode k.typeName name)

/-- The group a kind belongs to. -/
def category : Kind → Category
  | gamma _ | hsv | invert | brightContrast | lightFalloff _ | rgbCurves | mix _ => .color
  | clamp _ | colorRamp | combineColor | math _ | rgbToBW | separateColor _ | vectorMath _ =>
    .converter
  | diffuseShader | emission => .shader
  | materialOutput => .output

/-- The type of the value that a node of this kind produces. -/
def output : Kind → ValueType
  | lightFalloff _ | clamp _ | math _ | rgbToBW | separateColor _ => .float
  | materialOutput => .vec4
  | _ => .vec3

end Kind

end MaterialGraph
