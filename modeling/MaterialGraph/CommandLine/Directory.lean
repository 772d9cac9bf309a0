/-!
# Directories

What is found at a path, seen from a directory that holds some files and nothing else.  A path is
walked name by name, so every name before the last has to lead to a directory; it is not enough
that a later name leads back.  Around the directory there are only directories.
-/

namespace MaterialGraph.CommandLine

/-- Why there is no text at a path. -/
inductive FileError where
  | missing
  | notDirectory
  | isDirectory
  | nameTooLong
  deriving DecidableEq

/-- The wording of the error, with the number that the operating system has for it. -/
def FileError.message : FileError → String
  | missing => "No such file or directory (os error 2)"
  | notDirectory => "Not a directory (os error 20)"
  | isDirectory => "Is a directory (os error 21)"
  | nameTooLong => "File name too long (os error 36)"

/-- A directory: the texts of its files, by name. -/
structure Directory where
  files : List (String × String)

/-- Where a walk has led to. -/
inductive Place where
  /-- The directory itself. -/
  | inside
  /-- A directory around it. -/
  | outside
  /-- A file with the given text. -/
  | file (text : String)
  deriving DecidableEq

/-- The parts of a text between slashes, of which the first starts with `start`, given backwards. -/
def segmentsFrom (start : List Char) : List Char → List (List Char)
  | [] => [start.reverse]
  | c :: cs => if c = '/' then start.reverse :: segmentsFrom [] cs else segmentsFrom (c :: start) cs

/-- The names in a path, some of which may be empty. -/
def segments (path : String) : List String :=
  (segmentsFrom [] path.toList).map String.ofList

namespace Directory

/-- How many bytes a name may have. -/
def nameLimit : Nat := 255

/-- How many bytes a path may have. -/
def pathLimit : Nat := 4095

/-- One step of a walk.  Only from a directory does a step lead anywhere, not even one that stays
where it is. -/
def step (d : Directory) (name : String) : Place → Except FileError Place
  | .file _ => .error .notDirectory
  | place =>
    if name = "" ∨ name = "." then .ok place
    else if name = ".." then .ok .outside
    else if nameLimit < name.utf8ByteSize then .error .nameTooLong
    else if place = .outside then .error .missing
    else
      match d.files.lookup name with
      | some text => .ok (.file text)
      | none => .error .missing

/-- A walk. -/
def walk (d : Directory) : List String → Place → Except FileError Place
  | [], place => .ok place
  | name :: names, place => do
    let place ← d.step name place
    d.walk names place

/-- Where a path starts: one that begins with a slash, outside. -/
def start (path : String) : Place :=
  if path.toList.head? = some '/' then .outside else .inside

/-- The text of the file at a path. -/
def read (d : Directory) (path : String) : Except FileError String :=
  if path = "" then .error .missing
  else if pathLimit < path.utf8ByteSize then .error .nameTooLong
  else
    match d.walk (segments path) (start path) with
    | .ok (.file text) => .ok text
    | .ok _ => .error .isDirectory
    | .error e => .error e

end Directory

end MaterialGraph.CommandLine
