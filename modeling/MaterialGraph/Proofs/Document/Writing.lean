import MaterialGraph.Document.Load
import MaterialGraph.Proofs.Json.Decoder

/-!
# Documents that are written and read again

Texts that differ a lot can hold the same document: records may be arrays, fields may be missing,
null or unknown, keys may be repeated.  What is read from any of them is well-formed
(`wellFormed_of_read`): the inputs of a node are sorted, and their values are canonical and not too
deep.  And a well-formed document is read back from the text that is written for it, as it was
(`read_text`).
-/

namespace MaterialGraph

open Json

/-! ### Options -/

/-- A binding of the result is read back. -/
lemma ResultBinding.decoder_toJson (b : ResultBinding) (budget : Nat) :
    decoder budget (.ofValue b.toJson) = .ok b := by
  cases b with
  | returned => rfl
  | omitted => rfl
  | assigned target => rfl

namespace Options

/-- Options are read back. -/
lemma decoder_toJson (o : Options) (budget : Nat) : decoder budget (.ofValue o.toJson) = .ok o := by
  have hresult := o.result.decoder_toJson budget
  have htree : Tree.ofValue o.toJson = .object [(.ok "result", .ofValue o.result.toJson),
      (.ok "indent", .string o.indent), (.ok "node_comments", .bool o.nodeComments)] none := rfl
  rw [htree]
  simp [decoder, draftField, hresult, ofDraft, Except.bind, Except.map]

/-- Options in a text of their own are read back. -/
lemma read_text (o : Options) : read o.toJson.text = .ok o := by
  have hnumbers : o.toJson.numbers = [] := by
    cases hresult : o.result <;>
      simp [toJson, ResultBinding.toJson, hresult, Value.numbers, Value.fieldNumbers]
  rw [read, Decoder.run_text (by simp [hnumbers]), decoder_toJson]

end Options

namespace Document

/-! ### Well-formed documents -/

/-- A value is canonical, and no deeper than an input of a node may be. -/
def Input.WellFormed : Input → Prop
  | link _ => True
  | value v _ => v.canonical = v ∧ v.depth + 1 ≤ Tree.depthLimit - 4

/-- The inputs are well-formed, and sorted by socket. -/
def InputsWellFormed (inputs : List (String × Input)) : Prop :=
  Sorted inputs ∧ ∀ p ∈ inputs, p.2.WellFormed

/-- The inputs of the node are well-formed. -/
def Node.WellFormed (n : Node) : Prop :=
  InputsWellFormed n.inputs

/-- All nodes are well-formed. -/
def WellFormed (d : Document) : Prop :=
  ∀ n ∈ d.nodes, n.WellFormed

/-! ### Reading what has been written -/

/-- A text that may be missing is read back. -/
lemma optional_optionalText (s : Option String) :
    Decoder.optional Decoder.text (.ofValue (optionalText s)) = .ok s := by
  cases s <;> rfl

/-- Metadata is read back, dates that are missing included. -/
lemma Metadata.decoder_toJson (m : Metadata) : decoder (.ofValue m.toJson) = .ok m := by
  have hcreated := optional_optionalText m.created
  have hmodified := optional_optionalText m.modified
  have htree : Tree.ofValue m.toJson = .object [(.ok "name", .string m.name),
      (.ok "created", .ofValue (optionalText m.created)),
      (.ok "modified", .ofValue (optionalText m.modified))] none := rfl
  rw [htree]
  simp [decoder, draftField, hcreated, hmodified, bind, Except.bind, pure, Except.pure, Except.map]

/-- A well-formed input is read back.  A link is told from a value by the field that it has, and a
canonical value is what its own fields are made into. -/
lemma Input.decoder_toJson {input : Input} (h : input.WellFormed) :
    decoder (Tree.depthLimit - 4) (.ofValue input.toJson) = .ok input := by
  cases input with
  | link id => rfl
  | value v type =>
    obtain ⟨hcanonical, hdepth⟩ := h
    have hvalue : (Tree.ofValue (value v type).toJson).toValue (Tree.depthLimit - 4) =
        .ok (value v type).toJson := by
      -- the object around the value takes one more of the depth that is allowed
      refine Tree.toValue_ofValue _ _ (le_trans (Nat.succ_le_succ ?_) hdepth)
      cases type <;> simp [Value.fieldsDepth, optionalText, Value.depth]
    unfold decoder
    rw [hvalue]
    cases type <;>
      simp [toJson, optionalText, link?, value?, named, hcanonical, unshaped, bind, Except.bind,
        pure, Except.pure]

/-- A node with well-formed inputs is read back: its inputs are in order, so sorting them changes
nothing. -/
lemma Node.decoder_toJson {n : Node} (h : n.WellFormed) : decoder (.ofValue n.toJson) = .ok n := by
  have hmode := optional_optionalText n.mode
  have hinputs : inputsDecoder
      (.ofValue (.object (n.inputs.map fun p => (p.1, p.2.toJson)))) = .ok n.inputs :=
    Decoder.map_ofValue h.1 fun p hp => Input.decoder_toJson (h.2 p hp)
  have htree : Tree.ofValue n.toJson = .object [(.ok "id", .string n.id),
      (.ok "type", .string n.type), (.ok "mode", .ofValue (optionalText n.mode)),
      (.ok "inputs", .ofValue (.object (n.inputs.map fun p => (p.1, p.2.toJson))))] none := rfl
  rw [htree]
  simp [decoder, draftField, hmode, hinputs, bind, Except.bind, pure, Except.pure, Except.map]

/-- A well-formed document is taken out of its tree. -/
lemma decoder_toJson {d : Document} (h : d.WellFormed) : decoder (.ofValue d.toJson) = .ok d := by
  obtain ⟨version, metadata, nodes, output, options⟩ := d
  have hmetadata := metadata.decoder_toJson
  have hnodes : Decoder.list Node.decoder (.ofValue (.array (nodes.map Node.toJson))) = .ok nodes :=
    Decoder.list_ofValue fun n hn => Node.decoder_toJson (h n hn)
  -- what stands in the place of the options is theirs, or nothing
  obtain ⟨written, hoptions, htree⟩ : ∃ written, optionsDecoder (.ofValue written) = .ok options ∧
      Tree.ofValue (toJson ⟨version, metadata, nodes, output, options⟩) =
        .object [(.ok "version", .string version), (.ok "metadata", .ofValue metadata.toJson),
          (.ok "nodes", .ofValue (.array (nodes.map Node.toJson))), (.ok "output", .string output),
          (.ok "options", .ofValue written)] none := by
    cases options with
    | none => exact ⟨.null, rfl, rfl⟩
    | some o =>
      have ho := o.decoder_toJson (Tree.depthLimit - 3)
      exact ⟨o.toJson, congrArg (Except.map some) ho, rfl⟩
  rw [htree]
  simp [decoder, draftField, hmetadata, hnodes, hoptions, bind, Except.bind, pure, Except.pure,
    Except.map]

/-- A well-formed document is read back. -/
lemma read_text {d : Document} (h : d.WellFormed) (hnumbers : ∀ n ∈ d.toJson.numbers, n.ReadsBack) :
    read d.text = .ok d := by
  rw [read, text, Decoder.run_text hnumbers, decoder_toJson h]

/-! ### What is read is well-formed -/

/-- What fields hold under a name is one of the values that they hold. -/
lemma Input.mem_of_mem_named {name : String} {fields : List (String × Value)} {v : Value}
    (h : v ∈ named name fields) : ∃ p ∈ fields, p.2 = v := by
  obtain ⟨p, hp, rfl⟩ := List.mem_map.mp h
  exact ⟨p, List.mem_of_mem_filter hp, rfl⟩

/-- A value that is made of fields is canonical, and less deep than they are together. -/
lemma Input.exists_of_value? {fields : List (String × Value)} {input : Input}
    (h : value? fields = some input) :
    ∃ v type, input = value v type ∧ v.canonical = v ∧ v.depth ≤ Value.fieldsDepth fields := by
  have hvalue : ∀ v, named "value" fields = [v] →
      v.canonical.canonical = v.canonical ∧ v.canonical.depth ≤ Value.fieldsDepth fields := by
    intro v hv
    obtain ⟨p, hp, rfl⟩ := mem_of_mem_named (hv ▸ List.mem_singleton_self v)
    exact ⟨p.2.canonical_canonical,
      p.2.depth_canonical_le.trans (Value.fieldsDepth_le_iff.mp le_rfl p hp)⟩
  unfold value? at h
  split at h
  · rename_i v hv _
    exact ⟨_, _, (Option.some.inj h).symm, hvalue v hv⟩
  · rename_i v hv _
    exact ⟨_, _, (Option.some.inj h).symm, hvalue v hv⟩
  · rename_i v _ hv _
    exact ⟨_, _, (Option.some.inj h).symm, hvalue v hv⟩
  · simp at h

/-- An input that is read is well-formed: its value has been made canonical, which cannot make it
deeper, and the object around it has taken one of the levels that were allowed. -/
lemma Input.gives_wellFormed : (decoder (Tree.depthLimit - 4)).Gives WellFormed := by
  intro t input h
  obtain ⟨v, hv, h⟩ := bind_eq_ok_iff.mp h
  have hdepth : v.depth ≤ Tree.depthLimit - 4 := by
    cases htree : t.toValue (Tree.depthLimit - 4) with
    | error f => simp [htree, unshaped, faulty] at hv
    | ok w =>
      obtain rfl : w = v := by simpa [htree, unshaped] using hv
      exact t.depth_le_of_toValue htree
  cases v with
  | object fields =>
    dsimp only at h
    split at h
    · rename_i link hlink
      obtain rfl := Except.ok.inj h
      unfold link? at hlink
      split at hlink
      · obtain rfl := Option.some.inj hlink
        trivial
      · simp at hlink
    · rename_i other hvalue
      obtain rfl := Except.ok.inj h
      obtain ⟨w, type, rfl, hcanonical, hw⟩ := exists_of_value? hvalue
      exact ⟨hcanonical, (Nat.succ_le_succ hw).trans hdepth⟩
    · simp [mismatch] at h
  | _ => simp [mismatch] at h

/-- Inputs that are read are well-formed and in order. -/
lemma Node.inputsDecoder_gives : inputsDecoder.Gives InputsWellFormed :=
  Input.gives_wellFormed.map

/-- A field of a node keeps the inputs that have been read well-formed. -/
lemma Node.draftField_keeps {draft draft' : Draft} {key : String} {t : Tree}
    (hdraft : ∀ inputs, draft.inputs = some inputs → InputsWellFormed inputs)
    (h : draftField draft key t = .ok draft') :
    ∀ inputs, draft'.inputs = some inputs → InputsWellFormed inputs := by
  unfold draftField at h
  iterate 3
    rcases ite_eq_iff.mp h with ⟨-, h⟩ | ⟨-, h⟩
    · obtain ⟨_, _, rfl⟩ := map_eq_ok_iff.mp h
      exact hdraft
  rcases ite_eq_iff.mp h with ⟨-, h⟩ | ⟨-, h⟩
  · obtain ⟨_, hfill, rfl⟩ := map_eq_ok_iff.mp h
    exact inputsDecoder_gives.fill hfill
  · obtain ⟨_, _, rfl⟩ := map_eq_ok_iff.mp h
    exact hdraft

/-- A node that is read is well-formed, in whichever of the two forms its record was written. -/
lemma Node.gives_wellFormed : decoder.Gives WellFormed := by
  -- a node need not have inputs, in an object or in an array
  have hgetD : ∀ slot : Option (List (String × Input)),
      (∀ inputs, slot = some inputs → InputsWellFormed inputs) →
      InputsWellFormed (slot.getD []) := by
    intro slot hslot
    cases slot with
    | none => exact ⟨List.Pairwise.nil, List.forall_mem_nil _⟩
    | some inputs => exact hslot inputs rfl
  intro t n h
  cases t with
  | object fields stop =>
    obtain ⟨draft, hdraft, h⟩ := bind_eq_ok_iff.mp h
    obtain ⟨id, _, h⟩ := bind_eq_ok_iff.mp h
    obtain ⟨type, _, h⟩ := bind_eq_ok_iff.mp h
    obtain rfl := Except.ok.inj h
    exact hgetD _ (Decoder.fields_keep (fun _ _ _ _ => draftField_keeps) (by simp) hdraft)
  | array trees stop =>
    obtain ⟨⟨id, rest⟩, _, h⟩ := bind_eq_ok_iff.mp h
    obtain ⟨⟨type, rest⟩, _, h⟩ := bind_eq_ok_iff.mp h
    obtain ⟨⟨mode, rest⟩, _, h⟩ := bind_eq_ok_iff.mp h
    obtain ⟨⟨inputs, rest⟩, hinputs, h⟩ := bind_eq_ok_iff.mp h
    obtain ⟨_, _, h⟩ := bind_eq_ok_iff.mp h
    obtain rfl := Except.ok.inj h
    exact hgetD _ (inputsDecoder_gives.next? hinputs)
  | _ => exact nomatch h

/-- A field of a document keeps the nodes that have been read well-formed. -/
lemma draftField_keeps {draft draft' : Draft} {key : String} {t : Tree}
    (hdraft : ∀ nodes, draft.nodes = some nodes → ∀ n ∈ nodes, n.WellFormed)
    (h : draftField draft key t = .ok draft') :
    ∀ nodes, draft'.nodes = some nodes → ∀ n ∈ nodes, n.WellFormed := by
  unfold draftField at h
  iterate 2
    rcases ite_eq_iff.mp h with ⟨-, h⟩ | ⟨-, h⟩
    · obtain ⟨_, _, rfl⟩ := map_eq_ok_iff.mp h
      exact hdraft
  rcases ite_eq_iff.mp h with ⟨-, h⟩ | ⟨-, h⟩
  · obtain ⟨_, hfill, rfl⟩ := map_eq_ok_iff.mp h
    exact Node.gives_wellFormed.list.fill hfill
  iterate 2
    rcases ite_eq_iff.mp h with ⟨-, h⟩ | ⟨-, h⟩
    · obtain ⟨_, _, rfl⟩ := map_eq_ok_iff.mp h
      exact hdraft
  obtain ⟨_, _, rfl⟩ := map_eq_ok_iff.mp h
  exact hdraft

/-- A document that is read is well-formed, in whichever of the two forms its record was written. -/
lemma gives_wellFormed : decoder.Gives WellFormed := by
  intro t d h
  cases t with
  | object fields stop =>
    obtain ⟨draft, hdraft, h⟩ := bind_eq_ok_iff.mp h
    obtain ⟨version, _, h⟩ := bind_eq_ok_iff.mp h
    obtain ⟨nodes, hnodes, h⟩ := bind_eq_ok_iff.mp h
    obtain ⟨output, _, h⟩ := bind_eq_ok_iff.mp h
    obtain rfl := Except.ok.inj h
    have hall := Decoder.fields_keep (fun _ _ _ _ => draftField_keeps) (by simp) hdraft
    cases hslot : draft.nodes with
    | none => simp [hslot, Decoder.required, mismatch] at hnodes
    | some read =>
      obtain rfl : read = nodes := by simpa [hslot, Decoder.required] using hnodes
      exact hall read hslot
  | array trees stop =>
    obtain ⟨⟨version, rest⟩, _, h⟩ := bind_eq_ok_iff.mp h
    obtain ⟨⟨metadata, rest⟩, _, h⟩ := bind_eq_ok_iff.mp h
    obtain ⟨⟨nodes, rest⟩, hnodes, h⟩ := bind_eq_ok_iff.mp h
    obtain ⟨⟨output, rest⟩, _, h⟩ := bind_eq_ok_iff.mp h
    obtain ⟨⟨options, rest⟩, _, h⟩ := bind_eq_ok_iff.mp h
    obtain ⟨_, _, h⟩ := bind_eq_ok_iff.mp h
    obtain rfl := Except.ok.inj h
    exact Node.gives_wellFormed.list.next hnodes
  | _ => exact nomatch h

/-- A document that is read is well-formed. -/
lemma wellFormed_of_read {s : String} {d : Document} (h : read s = .ok d) : d.WellFormed := by
  obtain ⟨d', hd, h⟩ := bind_eq_ok_iff.mp h
  have hd' : d' = d := by
    split at h
    · simp [faulty] at h
    · exact Except.ok.inj h
  exact hd' ▸ gives_wellFormed _ _ hd

/-- The text that is written for a document that has been read holds the same document.  So the text
is written again for what is read from it, and loading gives the same material and the same
warnings, or the same error, as from the text before.  Options are also read back on their own. -/
theorem read_text_of_read {s : String} {d : Document} (h : read s = .ok d)
    (hnumbers : ∀ n ∈ d.toJson.numbers, n.ReadsBack) :
    read d.text = .ok d ∧ (read d.text).map text = .ok d.text ∧
      (read d.text).map load = (read s).map load ∧
      ∀ o : Options, Options.read o.toJson.text = .ok o := by
  have hread := read_text (wellFormed_of_read h) hnumbers
  refine ⟨hread, ?_, ?_, Options.read_text⟩
  · rw [hread]
    rfl
  · rw [hread, h]

/-- A document as someone might write it: some records are arrays, a node has a field that is not
known, a socket is listed twice, and a link that is no string is not taken for one. -/
def sketch : Value :=
  .array [.string "1", .array [.string "café \"noir\"\n", .null, .string "2024"],
    .array [
      .object [("type", .string "Math"), ("note", .null), ("id", .string "a\\b"),
        ("inputs", .object [("B", .object [("link", .string "c")]),
          ("A", .object [("link", .number .half), ("value", .string "\t")]),
          ("B", .object [("type", .null), ("value", .object [("y", .number .half), ("x", .null),
            ("y", .array [.number .half, .bool true])])])])],
      .array [.string "c", .string "Mix"]],
    .string "a\\b",
    .array [.object [("target", .string "color"), ("kind", .string "assign")], .string "  "]]

/-- The document that is read from it. -/
def sketched : Document where
  version := "1"
  metadata := ⟨"café \"noir\"\n", none, some "2024"⟩
  nodes :=
    [⟨"a\\b", "Math", none,
        [("A", .value (.string "\t") none),
          ("B", .value (.object [("x", .null), ("y", .array [.number .half, .bool true])]) none)]⟩,
      ⟨"c", "Mix", none, []⟩]
  output := "a\\b"
  options := some ⟨.assigned "color", "  ", false⟩

/-- The document is read from the sketch, and read back from its own text. -/
theorem read_text_of_read_sketch :
    read sketch.text = .ok sketched ∧ (∀ n ∈ sketched.toJson.numbers, n.ReadsBack) ∧
      read sketched.text = .ok sketched ∧ (read sketched.text).map text = .ok sketched.text ∧
      (read sketched.text).map load = (read sketch.text).map load := by
  have hsketch : ∀ n ∈ sketch.numbers, n.ReadsBack := by
    have hnumbers : sketch.numbers = [.half, .half, .half] := rfl
    simp [hnumbers, Number.half_readsBack]
  have hsketched : ∀ n ∈ sketched.toJson.numbers, n.ReadsBack := by
    have hnumbers : sketched.toJson.numbers = [.half] := rfl
    simp [hnumbers, Number.half_readsBack]
  have hread : read sketch.text = .ok sketched := by
    rw [read, Decoder.run_text hsketch]
    rfl
  obtain ⟨hback, htext, hload, _⟩ := read_text_of_read hread hsketched
  exact ⟨hread, hsketched, hback, htext, hload⟩

end Document

end MaterialGraph
