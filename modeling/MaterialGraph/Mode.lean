/-!
# Operation modes

Some kinds of node can do their work in several ways.  Each such family of modes is a finite list
of named choices, one of which is taken when none is asked for.
-/

namespace MaterialGraph

/-- A family of modes: its choices in their fixed order, their names, and the choice taken when
none is asked for. -/
class Mode (α : Type) where
  all : List α
  name : α → String
  standard : α

/-- The choice of a family that has the given name. -/
def Mode.ofName? (α : Type) [Mode α] (name : String) : Option α :=
  (Mode.all : List α).find? fun m => Mode.name m == name

/-- Between which colour spaces a gamma node goes. -/
inductive GammaMode where
  | linearToSRGB
  | srgbToLinear
  deriving DecidableEq

/-- How light fades with distance. -/
inductive FalloffMode where
  | quadratic
  | linear
  | constant
  deriving DecidableEq

/-- Which bounds a clamp keeps a value within. -/
inductive ClampMode where
  | minMax
  | minOnly
  | maxOnly
  deriving DecidableEq

/-- Operations on two numbers. -/
inductive MathMode where
  | add
  | subtract
  | multiply
  | divide
  | power
  | modulo
  | minimum
  | maximum
  deriving DecidableEq

/-- Ways to blend two colours. -/
inductive MixMode where
  | mix
  | add
  | multiply
  | screen
  | subtract
  deriving DecidableEq

/-- Operations on vectors. -/
inductive VectorMode where
  | add
  | subtract
  | crossProduct
  | dotProduct
  | normalize
  deriving DecidableEq

/-- The channels of a colour. -/
inductive Channel where
  | red
  | green
  | blue
  deriving DecidableEq

instance : Mode GammaMode where
  all := [.linearToSRGB, .srgbToLinear]
  name
    | .linearToSRGB => "LinearToSRGB"
    | .srgbToLinear => "SRGBToLinear"
  standard := .srgbToLinear

instance : Mode FalloffMode where
  all := [.quadratic, .linear, .constant]
  name
    | .quadratic => "Quadratic"
    | .linear => "Linear"
    | .constant => "Constant"
  standard := .constant

instance : Mode ClampMode where
  all := [.minMax, .minOnly, .maxOnly]
  name
    | .minMax => "MinMax"
    | .minOnly => "MinOnly"
    | .maxOnly => "MaxOnly"
  standard := .minMax

instance : Mode MathMode where
  all := [.add, .subtract, .multiply, .divide, .power, .modulo, .minimum, .maximum]
  name
    | .add => "Add"
    | .subtract => "Subtract"
    | .multiply => "Multiply"
    | .divide => "Divide"
    | .power => "Power"
    | .modulo => "Modulo"
    | .minimum => "Minimum"
    | .maximum => "Maximum"
  standard := .add

instance : Mode MixMode where
  all := [.mix, .add, .multiply, .screen, .subtract]
  name
    | .mix => "Mix"
    | .add => "Add"
    | .multiply => "Multiply"
    | .screen => "Screen"
    | .subtract => "Subtract"
  standard := .mix

instance : Mode VectorMode where
  all := [.add, .subtract, .crossProduct, .dotProduct, .normalize]
  name
    | .add => "Add"
    | .subtract => "Subtract"
    | .crossProduct => "CrossProduct"
    | .dotProduct => "DotProduct"
    | .normalize => "Normalize"
  standard := .add

instance : Mode Channel where
  all := [.red, .green, .blue]
  name
    | .red => "Red"
    | .green => "Green"
    | .blue => "Blue"
  standard := .red

/-- The selector that takes a channel out of a colour. -/
def Channel.selector : Channel → String
  | red => "r"
  | green => "g"
  | blue => "b"

end MaterialGraph
