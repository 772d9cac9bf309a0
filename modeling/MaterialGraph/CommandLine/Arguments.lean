import MaterialGraph.Text.Lines

/-!
# Arguments

The arguments of the command line are flags, two of which take a value.  A flag may be given more
than once; the last one counts.
-/

namespace MaterialGraph.CommandLine

/-- The flags. -/
inductive Flag where
  | material
  | options
  | shader
  | wgsl
  | validate
  deriving DecidableEq

namespace Flag

/-- Every flag once. -/
def all : List Flag := [material, options, shader, wgsl, validate]

/-- How a flag is written. -/
def name : Flag → String
  | material => "--material"
  | options => "--options"
  | shader => "--shader"
  | wgsl => "--wgsl"
  | validate => "--validate"

/-- How the use of a flag is shown. -/
def usage : Flag → String
  | material => "--material <doc.json>"
  | options => "--options <options.json>"
  | shader => "--shader"
  | wgsl => "--wgsl"
  | validate => "--validate"

/-- The flag that an argument is. -/
def ofName? (arg : String) : Option Flag :=
  all.find? fun f => f.name == arg

end Flag

/-- What is printed for a material: its body, a fragment shader around it, or the text of the
fragment shader in WGSL. -/
inductive Emit where
  | body
  | shader
  | wgsl
  deriving DecidableEq

/-- What the arguments ask for. -/
structure Arguments where
  material : Option String := none
  options : Option String := none
  emit : Emit := .body
  validate : Bool := false
  deriving DecidableEq

/-- Why arguments are refused. -/
inductive ArgumentError where
  | missingValue (flag : Flag)
  | unknown (arg : String)
  deriving DecidableEq

/-- The wording of the error. -/
def ArgumentError.message : ArgumentError → String
  | missingValue flag => "missing value for " ++ flag.name
  | unknown arg => "unknown argument: " ++ arg ++ " (supported: "
      ++ Text.separated ", " (Flag.all.map Flag.usage) ++ ")"

/-- What is asked for once more arguments have been read.  The value of a flag may be any text,
also one that looks like a flag. -/
def Arguments.read (a : Arguments) : List String → Except ArgumentError Arguments
  | [] => .ok a
  | arg :: rest =>
    match Flag.ofName? arg with
    | none => .error (.unknown arg)
    | some .material =>
      match rest with
      | [] => .error (.missingValue .material)
      | value :: rest => { a with material := some value }.read rest
    | some .options =>
      match rest with
      | [] => .error (.missingValue .options)
      | value :: rest => { a with options := some value }.read rest
    | some .shader => { a with emit := .shader }.read rest
    | some .wgsl => { a with emit := .wgsl }.read rest
    | some .validate => { a with validate := true }.read rest

/-- What a list of arguments asks for. -/
def Arguments.parse (args : List String) : Except ArgumentError Arguments :=
  ({} : Arguments).read args

end MaterialGraph.CommandLine
