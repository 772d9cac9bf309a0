import MaterialGraph.CommandLine.Arguments
import MaterialGraph.CommandLine.Report
import MaterialGraph.Document.Load
import MaterialGraph.Shader.Fragment
import MaterialGraph.Shader.Listing

/-!
# Running the command line

What the program prints for its arguments, as a function of what it can ask its surroundings: the
contents of files, a verdict on a fragment shader, and the text of a fragment shader in WGSL.

The program goes through stages, each of which may end it with an error, and it prints on the way
(`Job`).
-/

namespace MaterialGraph.CommandLine

/-- What the program can ask for. -/
structure Surroundings where
  /-- The text of a file, or why it cannot be read. -/
  file : String → Except String String
  /-- What is wrong with a fragment shader, if anything is. -/
  complaint : String → Option String
  /-- The text of a fragment shader in WGSL, or why there is none. -/
  wgsl : String → Except String String

/-- Why a run fails. -/
inductive RunError where
  | arguments (e : ArgumentError)
  | noMaterial
  | unreadableMaterial (path reason : String)
  | malformedMaterial (path : String) (e : Json.ReadError)
  | unloadable (path : String) (e : Document.LoadError)
  | unreadableOptions (path reason : String)
  | malformedOptions (e : Json.ReadError)
  | needsReturn
  | uncompilable (path : String) (e : GraphError)
  | fragment (e : Shader.FragmentError)
  | refused (name source complaint : String)
  | noWgsl (reason : String)

namespace RunError

/-- What is said about a fragment shader that was refused. -/
def diagnosis (source complaint : String) : String :=
  complaint ++ "\n" ++ Shader.listing source

/-- The wording of the error: what went wrong and, after it, what that was caused by. -/
def message : RunError → String × List String
  | arguments e => (e.message, [])
  | noMaterial => (Flag.material.usage ++ " is required", [])
  | unreadableMaterial path reason => ("failed to read material json at " ++ path, [reason])
  | malformedMaterial path e =>
    ("failed to load material " ++ path, ["failed to parse material json", e.message])
  | unloadable path e => ("failed to load material " ++ path, e.causes)
  | unreadableOptions path reason => ("failed to read compile options at " ++ path, [reason])
  | malformedOptions e => ("invalid compile options json", [e.message])
  | needsReturn =>
    ("--shader, --wgsl and --validate need the `return` result binding", [])
  | uncompilable path e => ("material " ++ path ++ " failed to compile", [e.message])
  | fragment e => (e.message, [])
  | refused name source complaint =>
    (Shader.refusal ("material " ++ name), [diagnosis source complaint])
  | noWgsl reason => (reason, [])

end RunError

/-- The material in a file. -/
def loadMaterial (s : Surroundings) (path : String) : Except RunError Material :=
  match s.file path with
  | .error reason => .error (.unreadableMaterial path reason)
  | .ok text =>
    match Document.read text with
    | .error e => .error (.malformedMaterial path e)
    | .ok d =>
      match d.load.result with
      | .error e => .error (.unloadable path e)
      | .ok m => .ok m

/-- The options in a file if one is given, and otherwise those of the material. -/
def chooseOptions (s : Surroundings) (own : Options) : Option String → Except RunError Options
  | none => .ok own
  | some path =>
    match s.file path with
    | .error reason => .error (.unreadableOptions path reason)
    | .ok text =>
      match Options.read text with
      | .error e => .error (.malformedOptions e)
      | .ok options => .ok options

namespace Arguments

/-- The path of the material, which has to be given. -/
def materialPath (a : Arguments) : Except RunError String :=
  match a.material with
  | none => .error .noMaterial
  | some path => .ok path

/-- Whether a fragment shader is needed. -/
def needsShader (a : Arguments) : Bool :=
  a.validate || a.emit != .body

/-- A fragment shader that is needed asks for a body that returns its value. -/
def permits (a : Arguments) (options : Options) : Except RunError Unit :=
  if a.needsShader && options.result != .returned then .error .needsReturn else .ok ()

/-- The verdict on a fragment shader, if one is asked for. -/
def verdict (a : Arguments) (s : Surroundings) (name source : String) : Except RunError Unit :=
  if a.validate then
    match s.complaint source with
    | some complaint => .error (.refused name source complaint)
    | none => .ok ()
  else .ok ()

/-- What is said about a verdict that is not against the shader. -/
def approval (a : Arguments) (path : String) : String :=
  if a.validate then "[validate] " ++ path ++ ": ok\n" else ""

/-- What is printed for a shader and the fragment shader around it. -/
def printed (a : Arguments) (s : Surroundings) (shader : Shader) (source : String) :
    Except RunError String :=
  match a.emit with
  | .body => .ok shader.source
  | .shader => .ok source
  | .wgsl =>
    match s.wgsl source with
    | .ok text => .ok text
    | .error reason => .error (.noWgsl reason)

end Arguments

/-- What has been printed so far. -/
structure Console where
  stdout : String := ""
  stderr : String := ""
  deriving DecidableEq

/-- A part of the program.  When it stops with an error, whatever it has printed by then stays
printed. -/
abbrev Job (α : Type) := EStateM RunError Console α

namespace Job

/-- Goes on with a result if there is one. -/
def ofExcept {α : Type} : Except RunError α → Job α
  | .ok a => return a
  | .error e => throw e

/-- Prints a text. -/
def print (text : String) : Job Unit :=
  modify fun c => { c with stdout := c.stdout ++ text }

/-- Prints a text where errors are reported. -/
def note (text : String) : Job Unit :=
  modify fun c => { c with stderr := c.stderr ++ text }

end Job

/-- Wraps a fragment shader around a shader and prints what is asked for. -/
def printFragment (a : Arguments) (s : Surroundings) (path name : String) (shader : Shader) :
    Job Unit := do
  let source ← Job.ofExcept ((Shader.fragment shader.source shader.result).mapError .fragment)
  Job.ofExcept (a.verdict s name source)
  Job.note (a.approval path)
  let text ← Job.ofExcept (a.printed s shader source)
  Job.print text

/-- Compiles a material and prints it. -/
def printMaterial (a : Arguments) (s : Surroundings) (path : String) (m : Material)
    (options : Options) : Job Unit := do
  let shader ← Job.ofExcept ((m.graph.compile options).result.mapError (.uncompilable path))
  if a.needsShader then printFragment a s path m.name shader else Job.print shader.source

/-- The program up to the report on an error. -/
def perform (s : Surroundings) (args : List String) : Job Unit := do
  let a ← Job.ofExcept ((Arguments.parse args).mapError .arguments)
  let path ← Job.ofExcept a.materialPath
  let m ← Job.ofExcept (loadMaterial s path)
  let options ← Job.ofExcept (chooseOptions s m.options a.options)
  Job.ofExcept (a.permits options)
  printMaterial a s path m options

/-- How a run ends: the exit code and what is printed. -/
structure Exit where
  code : Nat
  stdout : String
  stderr : String
  deriving DecidableEq

/-- Runs the program. -/
def run (s : Surroundings) (args : List String) : Exit :=
  match (perform s args).run {} with
  | .ok _ c => ⟨0, c.stdout, c.stderr⟩
  | .error e c => ⟨1, c.stdout, c.stderr ++ report e.message.1 e.message.2⟩

end MaterialGraph.CommandLine
