import MaterialGraph.CommandLine.Directory
import MaterialGraph.CommandLine.Run

/-!
# The program

Reads the files that the arguments name and prints what the run comes to.  No checker and no writer
of WGSL is at hand: every fragment shader is taken as valid, and none has a text in WGSL.
-/

namespace MaterialGraph.CommandLine

/-- The paths among the arguments. -/
def Arguments.paths (a : Arguments) : List String :=
  a.material.toList ++ a.options.toList

/-- Why a file cannot be read, with the number that the operating system has for it. -/
def reasonText : IO.Error → String
  | .noFileOrDirectory _ _ _ => FileError.missing.message
  | .permissionDenied _ code details => details ++ " (os error " ++ toString code ++ ")"
  | .inappropriateType _ code details => details ++ " (os error " ++ toString code ++ ")"
  | e => e.toString

/-- The text of a file, or why it cannot be read. -/
def readText (path : String) : IO (Except String String) := do
  try
    return .ok (← IO.FS.readFile path)
  catch e =>
    return .error (reasonText e)

/-- What the program can ask for, once the files at some paths have been read. -/
def surroundings (files : List (String × Except String String)) : Surroundings where
  file path := (files.lookup path).getD (.error "not read")
  complaint _ := none
  wgsl _ := .error "no text in WGSL"

/-- The program: its exit code, after it has printed. -/
def program (args : List String) : IO UInt32 := do
  let paths := match Arguments.parse args with
    | .ok a => a.paths
    | .error _ => []
  let files ← paths.mapM fun path => return (path, ← readText path)
  let exit := run (surroundings files) args
  IO.print exit.stdout
  IO.eprint exit.stderr
  return exit.code.toUInt32

end MaterialGraph.CommandLine

/-- Runs the program. -/
def main (args : List String) : IO UInt32 :=
  MaterialGraph.CommandLine.program args
