import MaterialGraph.Json.Decoder
import MaterialGraph.Options.Basic

/-!
# Options in JSON

How options are read from JSON and written to it.  Options that are not given keep their defaults;
fields that are not known are refused.
-/

namespace MaterialGraph

open Json

namespace ResultBinding

/-- Which of the ways to hand over a value is chosen, before its details are read. -/
inductive Tag where
  | returned
  | assigned
  | omitted
  deriving DecidableEq

/-- The names of the choices. -/
def tags : List (String × Tag) :=
  [("return", .returned), ("assign", .assigned), ("none", .omitted)]

/-- A choice, by its name. -/
def tagDecoder : Decoder Tag
  | .string s =>
    match tags.lookup s with
    | some tag => .ok tag
    | none => mismatch (.unknownVariant s (tags.map Prod.fst))
  | t => t.unexpected "variant identifier"

/-- What has been read of an object: the choice, and the other fields, the latest first. -/
structure Draft where
  tag : Option Tag
  others : List (String × Value)

/-- Reads a field of the object. -/
def draftField (budget : Nat) (d : Draft) (key : String) : Decoder Draft := fun t =>
  if key == "kind" then
    (Decoder.fill key d.tag tagDecoder t).map fun tag => { d with tag := tag }
  else
    (unshaped (t.toValue budget)).map fun v => { d with others := (key, v) :: d.others }

/-- The string that the target of an assignment has to be. -/
def targetOf : Value → Except ReadError String
  | .string s => .ok s
  | v => v.unexpected "a string"

/-- The target among the fields of an object, after the slot for it has been looked at. -/
def targetField (slot : Option String) : List (String × Value) → Except ReadError String
  | [] => Decoder.required "target" slot
  | (key, v) :: fs =>
    if key == "target" then
      match slot with
      | some _ => mismatch (.duplicateField key)
      | none => do
        let target ← targetOf v
        targetField (some target) fs
    else targetField slot fs

/-- The binding with its details taken from the other fields of an object. -/
def ofFields (fields : List (String × Value)) : Tag → Except ReadError ResultBinding
  | .returned => .ok .returned
  | .omitted => .ok .omitted
  | .assigned => (targetField none fields).map .assigned

/-- How many elements a sequence should have had. -/
def elementCount (n : Nat) : String :=
  Nat.repr n ++ (if n = 1 then " element" else " elements") ++ " in sequence"

/-- The binding with its details taken from the other items of an array. -/
def ofItems (items : List Value) : Tag → Except ReadError ResultBinding
  | .returned =>
    if items.isEmpty then .ok .returned
    else mismatch (.wrongLength items.length (elementCount 0))
  | .omitted =>
    if items.isEmpty then .ok .omitted
    else mismatch (.wrongLength items.length (elementCount 0))
  | .assigned =>
    match items with
    | [] => mismatch (.wrongLength 0 "struct variant ResultBinding::Assign with 1 element")
    | v :: rest => do
      let target ← targetOf v
      if rest.isEmpty then return .assigned target
      else mismatch (.wrongLength items.length (elementCount 1))

/-- A binding inside which `budget` further arrays and objects may be open. -/
def decoder (budget : Nat) : Decoder ResultBinding
  | .object fields stop => do
    let draft ← Decoder.fields (draftField budget) stop fields ⟨none, []⟩
    let tag ← Decoder.required "kind" draft.tag
    ofFields draft.others.reverse tag
  | .array trees stop => do
    match ← (Decoder.Items.mk trees stop).next? tagDecoder with
    | (none, _) => mismatch (.missingField "kind")
    | (some tag, rest) =>
      let values ← unshaped (Tree.itemValues budget rest.trees)
      unshaped (ended rest.stop)
      ofItems values tag
  | t => t.unexpected "internally tagged enum ResultBinding"

/-- A binding as JSON. -/
def toJson : ResultBinding → Value
  | returned => .object [("kind", .string "return")]
  | assigned target => .object [("kind", .string "assign"), ("target", .string target)]
  | omitted => .object [("kind", .string "none")]

end ResultBinding

namespace Options

/-- What has been read of options. -/
structure Draft where
  result : Option ResultBinding := none
  indent : Option String := none
  nodeComments : Option Bool := none

/-- The options with defaults for what has not been read. -/
def ofDraft (d : Draft) : Options :=
  let standard : Options := {}
  { result := d.result.getD standard.result
    indent := d.indent.getD standard.indent
    nodeComments := d.nodeComments.getD standard.nodeComments }

/-- The names of the fields. -/
def fieldNames : List String :=
  ["result", "indent", "node_comments"]

/-- Reads a field of the object. -/
def draftField (budget : Nat) (d : Draft) (key : String) : Decoder Draft := fun t =>
  if key == "result" then
    (Decoder.fill key d.result (ResultBinding.decoder budget) t).map ({ d with result := · })
  else if key == "indent" then
    (Decoder.fill key d.indent Decoder.text t).map ({ d with indent := · })
  else if key == "node_comments" then
    (Decoder.fill key d.nodeComments Decoder.flag t).map ({ d with nodeComments := · })
  else mismatch (.unknownField key fieldNames)

/-- Options inside whose result `budget` further arrays and objects may be open. -/
def decoder (budget : Nat) : Decoder Options
  | .object fields stop =>
    (Decoder.fields (draftField budget) stop fields {}).map ofDraft
  | .array trees stop => do
    let (result, rest) ← (Decoder.Items.mk trees stop).next? (ResultBinding.decoder budget)
    let (indent, rest) ← rest.next? Decoder.text
    let (nodeComments, rest) ← rest.next? Decoder.flag
    rest.finish
    return ofDraft ⟨result, indent, nodeComments⟩
  | t => t.unexpected "struct CompileOptions"

/-- Options from the text of a document that holds nothing else. -/
def read (s : String) : Except ReadError Options :=
  (decoder (Tree.depthLimit - 2)).run s

/-- Options as JSON. -/
def toJson (o : Options) : Value :=
  .object [("result", o.result.toJson), ("indent", .string o.indent),
    ("node_comments", .bool o.nodeComments)]

end Options

end MaterialGraph
