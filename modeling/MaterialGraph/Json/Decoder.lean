import MaterialGraph.Json.Printer
import MaterialGraph.Text.Quoted

/-!
# Decoders

How data of a known shape is taken out of a JSON text.  A text may be at fault in its form or not
have the shape that is asked for; whichever a reader meets first, going through the text from its
beginning, is reported.  A record can be written as an object or as an array of its fields in
order.
-/

namespace MaterialGraph.Json

/-- What a text has where something else was expected. -/
inductive Found where
  | null
  | bool (b : Bool)
  | number (n : Number)
  | string (s : String)
  | sequence
  | map

/-- The wording for what was found. -/
def Found.message : Found → String
  | null => "null"
  | bool b => "boolean `" ++ (if b then "true" else "false") ++ "`"
  | number (.real x) => "floating point `" ++ realText x ++ "`"
  | number n => "integer `" ++ n.text ++ "`"
  | string s => "string " ++ Text.quoted s
  | sequence => "sequence"
  | map => "map"

/-- In what way well-formed data does not have the expected shape. -/
inductive Mismatch where
  | missingField (name : String)
  | duplicateField (name : String)
  | unknownField (name : String) (known : List String)
  | unknownVariant (name : String) (known : List String)
  | wrongType (found : Found) (expected : String)
  | wrongLength (length : Nat) (expected : String)
  | noAlternative (name : String)

/-- Names in backquotes with commas between them. -/
def nameList (names : List String) : String :=
  Text.separated ", " (names.map fun name => "`" ++ name ++ "`")

/-- The wording of a mismatch. -/
def Mismatch.message : Mismatch → String
  | missingField name => "missing field `" ++ name ++ "`"
  | duplicateField name => "duplicate field `" ++ name ++ "`"
  | unknownField name known => "unknown field `" ++ name ++ "`, expected one of " ++ nameList known
  | unknownVariant name known =>
    "unknown variant `" ++ name ++ "`, expected one of " ++ nameList known
  | wrongType found expected => "invalid type: " ++ found.message ++ ", expected " ++ expected
  | wrongLength length expected =>
    "invalid length " ++ Nat.repr length ++ ", expected " ++ expected
  | noAlternative name => "data did not match any variant of untagged enum " ++ name

/-- Why data could not be taken out of a text. -/
inductive ReadError where
  | malformed (f : Fault)
  | mismatched (m : Mismatch)

/-- The wording of the error. -/
def ReadError.message : ReadError → String
  | malformed f => f.message
  | mismatched m => m.message

/-- A way to take data out of a tree. -/
abbrev Decoder (α : Type) := Tree → Except ReadError α

/-- The error of a fault. -/
def faulty {α : Type} (f : Fault) : Except ReadError α :=
  .error (.malformed f)

/-- The error of a mismatch. -/
def mismatch {α : Type} (m : Mismatch) : Except ReadError α :=
  .error (.mismatched m)

/-- A result of reading without a shape in mind. -/
def unshaped {α : Type} : Except Fault α → Except ReadError α
  | .ok a => .ok a
  | .error f => faulty f

/-- The error of a tree that is not of the expected type. -/
def Tree.unexpected {α : Type} (expected : String) : Tree → Except ReadError α
  | .null => mismatch (.wrongType .null expected)
  | .bool b => mismatch (.wrongType (.bool b) expected)
  | .number n => mismatch (.wrongType (.number n) expected)
  | .string s => mismatch (.wrongType (.string s) expected)
  | .array _ _ => mismatch (.wrongType .sequence expected)
  | .object _ _ => mismatch (.wrongType .map expected)
  | .defect d => faulty d.read

/-- The error of a value that is not of the expected type. -/
def Value.unexpected {α : Type} (expected : String) : Value → Except ReadError α
  | .null => mismatch (.wrongType .null expected)
  | .bool b => mismatch (.wrongType (.bool b) expected)
  | .number n => mismatch (.wrongType (.number n) expected)
  | .string s => mismatch (.wrongType (.string s) expected)
  | .array _ => mismatch (.wrongType .sequence expected)
  | .object _ => mismatch (.wrongType .map expected)

namespace Decoder

/-- A string. -/
def text : Decoder String
  | .string s => .ok s
  | t => t.unexpected "a string"

/-- A truth value. -/
def flag : Decoder Bool
  | .bool b => .ok b
  | t => t.unexpected "a boolean"

/-- Something or `null`. -/
def optional {α : Type} (d : Decoder α) : Decoder (Option α)
  | .null => .ok none
  | t => (d t).map some

/-- Passes over a value. -/
def skipped : Decoder Unit := fun t =>
  match t.skipFault with
  | none => .ok ()
  | some f => faulty f

/-- The items of an array, each taken out by a decoder. -/
def items {α : Type} (d : Decoder α) : List Tree → Except ReadError (List α)
  | [] => .ok []
  | t :: ts => do
    let a ← d t
    let as ← items d ts
    return a :: as

/-- An array. -/
def list {α : Type} (d : Decoder α) : Decoder (List α)
  | .array ts stop => do
    let as ← items d ts
    unshaped (ended stop)
    return as
  | t => t.unexpected "a sequence"

/-- The entries of an object, each value taken out by a decoder. -/
def entries {α : Type} (d : Decoder α) :
    List (Except Fault String × Tree) → Except ReadError (List (String × α))
  | [] => .ok []
  | (key, t) :: fs => do
    let key ← unshaped key
    let a ← d t
    let as ← entries d fs
    return (key, a) :: as

/-- An object as a map: sorted by key, the last of several entries with one key kept. -/
def map {α : Type} (d : Decoder α) : Decoder (List (String × α))
  | .object fields stop => do
    let as ← entries d fields
    unshaped (ended stop)
    return sortEntries as
  | t => t.unexpected "a map"

/-! ### Records written as objects -/

/-- Puts the value of a field into its slot, which must be empty still. -/
def fill {α : Type} (name : String) (slot : Option α) (d : Decoder α) (t : Tree) :
    Except ReadError (Option α) :=
  match slot with
  | some _ => mismatch (.duplicateField name)
  | none => (d t).map some

/-- Goes through the fields of an object with what has been read so far. -/
def fields {σ : Type} (step : σ → String → Decoder σ) (stop : Option Defect) :
    List (Except Fault String × Tree) → σ → Except ReadError σ
  | [], s => do
    unshaped (ended stop)
    return s
  | (key, t) :: fs, s => do
    let key ← unshaped key
    let s ← step s key t
    fields step stop fs s

/-- The content of a slot that has to be filled. -/
def required {α : Type} (name : String) : Option α → Except ReadError α
  | some a => .ok a
  | none => mismatch (.missingField name)

/-! ### Records written as arrays -/

/-- What is left of an array. -/
structure Items where
  trees : List Tree
  stop : Option Defect

namespace Items

/-- The next item, if there is one. -/
def next? {α : Type} (d : Decoder α) (r : Items) : Except ReadError (Option α × Items) :=
  match r.trees with
  | [] => do
    unshaped (ended r.stop)
    return (none, r)
  | t :: ts => do
    let a ← d t
    return (some a, ⟨ts, r.stop⟩)

/-- The item at `index`, which must be there; `shape` describes the whole. -/
def next {α : Type} (index : Nat) (shape : String) (d : Decoder α) (r : Items) :
    Except ReadError (α × Items) := do
  match ← r.next? d with
  | (some a, r) => return (a, r)
  | (none, _) => mismatch (.wrongLength index shape)

/-- The array has to be over. -/
def finish (r : Items) : Except ReadError Unit :=
  match r.trees, r.stop with
  | [], none => .ok ()
  | [], some d => faulty (if d.read = .expectedListComma then .trailingCharacters else d.read)
  | _ :: _, _ => faulty .trailingCharacters

end Items

/-- Takes data out of a text.  Nothing may follow it. -/
def run {α : Type} (d : Decoder α) (s : String) : Except ReadError α := do
  let reading := Tree.read s
  let a ← d reading.tree
  if reading.trailing then faulty .trailingCharacters else return a

end Decoder

end MaterialGraph.Json
