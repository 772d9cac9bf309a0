import MaterialGraph.Document.Basic
import MaterialGraph.Options.Json

/-!
# Documents in JSON

How documents are read from JSON and written to it.
-/

namespace MaterialGraph

open Json

namespace Document

/-! ### Reading -/

namespace Metadata

/-- What has been read of the metadata. -/
structure Draft where
  name : Option String := none
  created : Option (Option String) := none
  modified : Option (Option String) := none

/-- Reads a field of the object. -/
def draftField (d : Draft) (key : String) : Decoder Draft := fun t =>
  if key == "name" then (Decoder.fill key d.name Decoder.text t).map ({ d with name := · })
  else if key == "created" then
    (Decoder.fill key d.created (Decoder.optional Decoder.text) t).map ({ d with created := · })
  else if key == "modified" then
    (Decoder.fill key d.modified (Decoder.optional Decoder.text) t).map ({ d with modified := · })
  else (Decoder.skipped t).map fun _ => d

/-- The description of an array that holds metadata. -/
def shape : String := "struct Metadata with 3 elements"

/-- Metadata.  In an array the two dates have to be there. -/
def decoder : Decoder Metadata
  | .object fields stop => do
    let d ← Decoder.fields draftField stop fields {}
    return ⟨d.name.getD "", d.created.getD none, d.modified.getD none⟩
  | .array trees stop => do
    let (name, rest) ← (Decoder.Items.mk trees stop).next? Decoder.text
    let (created, rest) ← rest.next 1 shape (Decoder.optional Decoder.text)
    let (modified, rest) ← rest.next 2 shape (Decoder.optional Decoder.text)
    rest.finish
    return ⟨name.getD "", created, modified⟩
  | t => t.unexpected "struct Metadata"

end Metadata

namespace Input

/-- The values of the fields with a given name. -/
def named (name : String) (fields : List (String × Value)) : List Value :=
  (fields.filter fun (key, _) => key == name).map Prod.snd

/-- A link, if the fields make one: exactly one of them is called `link`, and it is a string. -/
def link? (fields : List (String × Value)) : Option Input :=
  match named "link" fields with
  | [.string id] => some (link id)
  | _ => none

/-- A value, if the fields make one: exactly one of them is called `value`, and at most one
`type`, which is a string or null. -/
def value? (fields : List (String × Value)) : Option Input :=
  match named "value" fields, named "type" fields with
  | [v], [] => some (value v.canonical none)
  | [v], [.null] => some (value v.canonical none)
  | [v], [.string type] => some (value v.canonical (some type))
  | _, _ => none

/-- An input inside and including which `budget` arrays and objects may be open. -/
def decoder (budget : Nat) : Decoder Input := fun t => do
  match ← unshaped (t.toValue budget) with
  | .object fields =>
    match link? fields, value? fields with
    | some input, _ => return input
    | none, some input => return input
    | none, none => mismatch (.noAlternative "InputBinding")
  | _ => mismatch (.noAlternative "InputBinding")

end Input

namespace Node

/-- What has been read of a node. -/
structure Draft where
  id : Option String := none
  type : Option String := none
  mode : Option (Option String) := none
  inputs : Option (List (String × Input)) := none

/-- The inputs of a node. -/
def inputsDecoder : Decoder (List (String × Input)) :=
  Decoder.map (Input.decoder (Tree.depthLimit - 4))

/-- Reads a field of the object. -/
def draftField (d : Draft) (key : String) : Decoder Draft := fun t =>
  if key == "id" then (Decoder.fill key d.id Decoder.text t).map ({ d with id := · })
  else if key == "type" then (Decoder.fill key d.type Decoder.text t).map ({ d with type := · })
  else if key == "mode" then
    (Decoder.fill key d.mode (Decoder.optional Decoder.text) t).map ({ d with mode := · })
  else if key == "inputs" then
    (Decoder.fill key d.inputs inputsDecoder t).map ({ d with inputs := · })
  else (Decoder.skipped t).map fun _ => d

/-- The description of an array that holds a node. -/
def shape : String := "struct DocNode with 4 elements"

/-- A node. -/
def decoder : Decoder Node
  | .object fields stop => do
    let d ← Decoder.fields draftField stop fields {}
    let id ← Decoder.required "id" d.id
    let type ← Decoder.required "type" d.type
    return ⟨id, type, d.mode.getD none, d.inputs.getD []⟩
  | .array trees stop => do
    let (id, rest) ← (Decoder.Items.mk trees stop).next 0 shape Decoder.text
    let (type, rest) ← rest.next 1 shape Decoder.text
    let (mode, rest) ← rest.next? (Decoder.optional Decoder.text)
    let (inputs, rest) ← rest.next? inputsDecoder
    rest.finish
    return ⟨id, type, mode.getD none, inputs.getD []⟩
  | t => t.unexpected "struct DocNode"

end Node

/-- What has been read of a document. -/
structure Draft where
  version : Option String := none
  metadata : Option Metadata := none
  nodes : Option (List Node) := none
  output : Option String := none
  options : Option (Option Options) := none

/-- The options that a document may have. -/
def optionsDecoder : Decoder (Option Options) :=
  Decoder.optional (Options.decoder (Tree.depthLimit - 3))

/-- Reads a field of the object. -/
def draftField (d : Draft) (key : String) : Decoder Draft := fun t =>
  if key == "version" then
    (Decoder.fill key d.version Decoder.text t).map ({ d with version := · })
  else if key == "metadata" then
    (Decoder.fill key d.metadata Metadata.decoder t).map ({ d with metadata := · })
  else if key == "nodes" then
    (Decoder.fill key d.nodes (Decoder.list Node.decoder) t).map ({ d with nodes := · })
  else if key == "output" then
    (Decoder.fill key d.output Decoder.text t).map ({ d with output := · })
  else if key == "options" then
    (Decoder.fill key d.options optionsDecoder t).map ({ d with options := · })
  else (Decoder.skipped t).map fun _ => d

/-- The description of an array that holds a document. -/
def shape : String := "struct MaterialDoc with 5 elements"

/-- A document. -/
def decoder : Decoder Document
  | .object fields stop => do
    let d ← Decoder.fields draftField stop fields {}
    let version ← Decoder.required "version" d.version
    let nodes ← Decoder.required "nodes" d.nodes
    let output ← Decoder.required "output" d.output
    return ⟨version, d.metadata.getD {}, nodes, output, d.options.getD none⟩
  | .array trees stop => do
    let (version, rest) ← (Decoder.Items.mk trees stop).next 0 shape Decoder.text
    let (metadata, rest) ← rest.next? Metadata.decoder
    let (nodes, rest) ← rest.next 2 shape (Decoder.list Node.decoder)
    let (output, rest) ← rest.next 3 shape Decoder.text
    let (options, rest) ← rest.next? optionsDecoder
    rest.finish
    return ⟨version, metadata.getD {}, nodes, output, options.getD none⟩
  | t => t.unexpected "struct MaterialDoc"

/-- The document that a text holds. -/
def read (s : String) : Except ReadError Document :=
  decoder.run s

/-! ### Writing -/

/-- A text or `null`. -/
def optionalText : Option String → Value
  | some s => .string s
  | none => .null

/-- Metadata as JSON. -/
def Metadata.toJson (m : Metadata) : Value :=
  .object [("name", .string m.name), ("created", optionalText m.created),
    ("modified", optionalText m.modified)]

/-- An input as JSON. -/
def Input.toJson : Input → Value
  | link id => .object [("link", .string id)]
  | value v type => .object [("value", v), ("type", optionalText type)]

/-- A node as JSON. -/
def Node.toJson (n : Node) : Value :=
  .object [("id", .string n.id), ("type", .string n.type), ("mode", optionalText n.mode),
    ("inputs", .object (n.inputs.map fun (socket, input) => (socket, input.toJson)))]

/-- A document as JSON. -/
def toJson (d : Document) : Value :=
  .object [("version", .string d.version), ("metadata", d.metadata.toJson),
    ("nodes", .array (d.nodes.map Node.toJson)), ("output", .string d.output),
    ("options", match d.options with
      | some o => o.toJson
      | none => .null)]

/-- The text of a document. -/
def text (d : Document) : String :=
  d.toJson.text

end Document

end MaterialGraph
