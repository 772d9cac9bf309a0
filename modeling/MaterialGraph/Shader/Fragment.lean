import MaterialGraph.Shader.Body
import MaterialGraph.Text.Blank

/-!
# Fragment shaders

A body becomes a complete fragment shader when it is put into a function between the helper
functions that formulas call and a `main` that turns its value into a colour.
-/

namespace MaterialGraph.Shader

/-- Why a body cannot be made into a fragment shader. -/
inductive FragmentError where
  | noReturn
  | handle (type : ValueType)
  deriving DecidableEq

/-- The wording of the error. -/
def FragmentError.message : FragmentError → String
  | noReturn => "fragment wrapper needs a body compiled with the `return` result binding"
  | handle type => "material output cannot be an opaque " ++ type.name ++ " value"

/-- The functions that formulas call and the language does not have. -/
def helperFunctions : String :=
  "vec3 rgb2hsv(vec3 c) \x7b\n"
    ++ "    vec4 K = vec4(0.0, -1.0 / 3.0, 2.0 / 3.0, -1.0);\n"
    ++ "    vec4 p = mix(vec4(c.bg, K.wz), vec4(c.gb, K.xy), vec4(step(c.b, c.g)));\n"
    ++ "    vec4 q = mix(vec4(p.xyw, c.r), vec4(c.r, p.yzx), vec4(step(p.x, c.r)));\n"
    ++ "    float d = q.x - min(q.w, q.y);\n"
    ++ "    float e = 1.0e-10;\n"
    ++ "    return vec3(abs(q.z + (q.w - q.y) / (6.0 * d + e)), d / (q.x + e), q.x);\n"
    ++ "\x7d\n"
    ++ "\n"
    ++ "vec3 hsv2rgb(vec3 c) \x7b\n"
    ++ "    vec4 K = vec4(1.0, 2.0 / 3.0, 1.0 / 3.0, 3.0);\n"
    ++ "    vec3 p = abs(fract(c.xxx + K.xyz) * 6.0 - K.www);\n"
    ++ "    return c.z * mix(K.xxx, clamp(p - K.xxx, vec3(0.0), vec3(1.0)), vec3(c.y));\n"
    ++ "\x7d\n"
    ++ "\n"
    ++ "vec3 LambertianBRDF(vec3 n, vec3 l, vec3 albedo) \x7b\n"
    ++ "    return albedo * max(dot(normalize(n), normalize(l)), 0.0) / 3.14159265;\n"
    ++ "\x7d\n"

/-- How `main` makes a colour of the body's value; handles cannot be made into one. -/
def colorOf : ValueType → Option String
  | .float => some "vec4(vec3(value), 1.0)"
  | .vec2 => some "vec4(value, 0.0, 1.0)"
  | .vec3 => some "vec4(value, 1.0)"
  | .vec4 => some "value"
  | .sampler1D | .sampler2D => none

/-- A line moved in by one level.  Of a blank line nothing is kept. -/
def indented (line : String) : String :=
  if Text.allBlank line.toList then "" else "    " ++ line

/-- The fragment shader around a body of the given type. -/
def wrapped (source : String) (type : ValueType) (color : String) : String :=
  "#version 450\n\n"
    ++ "layout(location = 0) in vec3 v_normal;\n"
    ++ "layout(location = 1) in vec3 v_light_dir;\n"
    ++ "layout(location = 0) out vec4 out_color;\n\n"
    ++ helperFunctions ++ "\n"
    ++ type.name ++ " evaluate_material(vec3 surface_normal, vec3 light_direction) \x7b\n"
    ++ Text.unlines ((Text.lines source).map indented)
    ++ "\x7d\n\nvoid main() \x7b\n    "
    ++ type.name ++ " value = evaluate_material(v_normal, v_light_dir);\n"
    ++ "    out_color = " ++ color ++ ";\n\x7d\n"

/-- The fragment shader around a body whose value is in `result`.  The body has to say that it
returns that variable. -/
def fragment (source : String) (result : Symbol) : Except FragmentError String :=
  if Text.occurs ("return " ++ result.name ++ ";").toList source.toList then
    match colorOf result.type with
    | some color => .ok (wrapped source result.type color)
    | none => .error (.handle result.type)
  else .error .noReturn

end MaterialGraph.Shader
