import Mathlib
import MaterialGraph.Proofs.Document.Loaded
import MaterialGraph.Proofs.Shader.Relocation

/-!
# The order of the nodes in a document

The nodes of a document are linked by their ids, so the order in which they are listed is up to the
author.  It does decide the places of the nodes in the graph, which of several mistakes is reported,
and whether a link leads to an earlier or a later node.

The proof goes through relocation.  If every node of a document is found in another one at the place
that `f` gives (`Moves`), then what the inputs put on a node in the first is, led through `f`, what
they put there in the second (`Filled.relocate`).  Since only one node can be filled for a node of
the document (`Filled.unique`), the second graph is the first one relocated (`Loaded.relocation`).

Main statement: `load_and_compile_rearranged`.
-/

namespace MaterialGraph

variable {f : NodeId → NodeId}

/-! ### Sockets of relocated nodes -/

/-- A socket is found by its name wherever the producers lie. -/
lemma Node.socket?_relocate (n : Node) (name : String) :
    (n.relocate f).socket? name = (n.socket? name).map (Socket.relocate f) := by
  unfold socket? relocate
  rw [List.find?_map]
  rfl

/-- Binding sockets anew and relocating them can be done in any order. -/
lemma Socket.rebind_relocate (name : String) (binding : Option Binding) (sockets : List Socket) :
    (rebind name binding sockets).map (Socket.relocate f) =
      rebind name (binding.map (Binding.relocate f)) (sockets.map (Socket.relocate f)) := by
  induction sockets with
  | nil => rfl
  | cons s sockets ih =>
    have hname : (s.relocate f).name = s.name := rfl
    rw [List.map_cons, rebind, rebind, hname]
    by_cases hs : (s.name == name) = true
    · rw [if_pos hs, if_pos hs]
      rfl
    · rw [if_neg hs, if_neg hs, List.map_cons, ih]

/-- Binding a socket of a node anew and relocating the node can be done in any order. -/
lemma Node.bind_relocate (n : Node) (socket : String) (binding : Binding) :
    (n.bind socket (some binding)).relocate f =
      (n.relocate f).bind socket (some (binding.relocate f)) := by
  unfold Node.bind Node.relocate
  rw [Socket.rebind_relocate]
  rfl

/-- A new node has no producers that could lie elsewhere. -/
lemma Node.new_relocate (name : String) (kind : Kind) :
    (Node.new name kind).relocate f = Node.new name kind := by
  have hspec : ∀ spec : SocketSpec, (Socket.ofSpec spec).relocate f = Socket.ofSpec spec := by
    intro spec
    obtain ⟨name, type, default⟩ := spec
    cases default <;> rfl
  unfold Node.new Node.relocate
  rw [List.map_map]
  congr 1
  exact List.map_congr_left fun spec _ => hspec spec

namespace Document

variable {d d' : Document}

/-! ### Nodes at other places of a document -/

/-- Every node of a document is found in another one at the place that `f` gives. -/
def Moves (d d' : Document) (f : NodeId → NodeId) : Prop :=
  ∀ i n, d.nodes[i]? = some n → d'.nodes[f i]? = some n

/-- The nodes of a document can be found in every document that has them. -/
lemma exists_moves (h : d.nodes ⊆ d'.nodes) : ∃ f, d.Moves d' f := by
  have hplace : ∀ i : NodeId, ∃ j : NodeId, ∀ n, d.nodes[i]? = some n →
      d'.nodes[j]? = some n := by
    intro i
    cases hn : d.nodes[i]? with
    | none => exact ⟨i, by simp⟩
    | some n =>
      obtain ⟨j, hj⟩ := List.getElem?_of_mem (h (List.mem_of_getElem? hn))
      refine ⟨j, fun m hm => ?_⟩
      rw [hj, hm]
  choose f hf using hplace
  exact ⟨f, hf⟩

/-- An input puts the same on a socket, with the producer at its new place. -/
lemma Binds.relocate (hf : d.Moves d' f) {type : ValueType} {input : Input} {binding : Binding}
    (h : d.Binds type input binding) : d'.Binds type input (binding.relocate f) := by
  cases h with
  | link hn hid => exact .link (hf _ _ hn) hid
  | value hspelling htext => exact .value hspelling htext

/-- Inputs fill a node in the same way, with the producers at their new places. -/
lemma Fills.relocate (hf : d.Moves d' f) {inputs : List (String × Input)}
    {n n' : MaterialGraph.Node} (h : d.Fills inputs n n') :
    d'.Fills inputs (n.relocate f) (n'.relocate f) := by
  induction h with
  | nil => exact .nil
  | @cons socket input inputs n n' s binding hsocket hbinds _ ih =>
    have hsocket' : (n.relocate f).socket? socket = some (s.relocate f) := by
      rw [n.socket?_relocate, hsocket, Option.map_some]
    rw [n.bind_relocate] at ih
    exact .cons hsocket' (hbinds.relocate hf) ih

/-- What is filled for a node of the document is filled elsewhere in the same way. -/
lemma Filled.relocate (hf : d.Moves d' f) {n : Node} {node : MaterialGraph.Node}
    (h : d.Filled n node) : d'.Filled n (node.relocate f) := by
  obtain ⟨made, ⟨k, hk, rfl⟩, hfills⟩ := h
  have hfills' := hfills.relocate hf
  rw [MaterialGraph.Node.new_relocate] at hfills'
  exact ⟨_, ⟨k, hk, rfl⟩, hfills'⟩

/-! ### Only one graph is loaded -/

/-- An id has one place at most. -/
lemma place_unique (hids : (d.nodes.map Node.id).Nodup) {i j : NodeId} {n m : Node}
    (hn : d.nodes[i]? = some n) (hm : d.nodes[j]? = some m) (hid : n.id = m.id) : i = j := by
  have hfound := (find?_eq_some_iff hids).mpr ⟨n, hn, hid⟩
  rw [(find?_eq_some_iff hids).mpr ⟨m, hm, rfl⟩] at hfound
  exact (Option.some.inj hfound).symm

/-- A value stands for one text at most on a socket of a given type. -/
lemma Denotes.unique {type : ValueType} {v : Json.Value} {text text' : String}
    (h : Denotes type v text) (h' : Denotes type v text') : text = text' := by
  by_cases hstring : ∃ s, v = .string s
  · obtain ⟨s, rfl⟩ := hstring
    cases h
    cases h'
    rfl
  · have hother : ∀ s, v ≠ .string s := fun s hs => hstring ⟨s, hs⟩
    have hwritten := ofValue_eq_typed_iff.mpr ⟨h, hother⟩
    rw [ofValue_eq_typed_iff.mpr ⟨h', hother⟩] at hwritten
    simpa [eq_comm] using hwritten

/-- An input puts one thing at most on a socket of a given type. -/
lemma Binds.unique (hids : (d.nodes.map Node.id).Nodup) {type : ValueType} {input : Input}
    {binding binding' : Binding} (h : d.Binds type input binding)
    (h' : d.Binds type input binding') : binding = binding' := by
  cases h with
  | link hn hid =>
    cases h' with
    | link hn' hid' => rw [place_unique hids hn hn' (hid.trans hid'.symm)]
  | value _ htext =>
    cases h' with
    | value _ htext' => rw [htext.unique htext']

/-- Inputs fill a node in one way at most. -/
lemma Fills.unique (hids : (d.nodes.map Node.id).Nodup) {inputs : List (String × Input)}
    {n n' n'' : MaterialGraph.Node} (h : d.Fills inputs n n') (h' : d.Fills inputs n n'') :
    n' = n'' := by
  induction h with
  | nil =>
    cases h'
    rfl
  | cons hsocket hbinds _ ih =>
    cases h' with
    | cons hsocket' hbinds' hrest' =>
      rw [hsocket] at hsocket'
      obtain rfl := Option.some.inj hsocket'
      obtain rfl := hbinds.unique hids hbinds'
      exact ih hrest'

/-- One node at most is filled for a node of the document. -/
lemma Filled.unique (hids : (d.nodes.map Node.id).Nodup) {n : Node}
    {node node' : MaterialGraph.Node} (h : d.Filled n node) (h' : d.Filled n node') :
    node = node' := by
  obtain ⟨made, ⟨k, hk, rfl⟩, hfills⟩ := h
  obtain ⟨made', hmade', hfills'⟩ := h'
  rw [(made_iff hk).mp hmade'] at hfills'
  exact hfills.unique hids hfills'

/-! ### Documents with their nodes in another order -/

/-- Loading succeeds just if there is a graph that is made from the document. -/
lemma exists_load_iff : (∃ m, d.load.result = .ok m) ↔ ∃ g, d.Loaded g := by
  constructor
  · rintro ⟨m, hm⟩
    exact ⟨m.graph, loaded_of_load hm⟩
  · rintro ⟨⟨filled, _⟩, hids, hfilled, i, houtput, rfl⟩
    exact ⟨_, load_eq_ok_iff.mpr ⟨hids, filled, i, hfilled, houtput, rfl⟩⟩

namespace Loaded

variable {g g' : Graph}

/-- The output is found where the nodes have moved. -/
lemma find?_output (h : d.Loaded g) (hf : d.Moves d' f) (hids : (d'.nodes.map Node.id).Nodup)
    {root : NodeId} (hroot : g.root = some root) : d'.find? d.output = some (f root) := by
  obtain ⟨i, houtput, hi⟩ := h.output
  obtain ⟨n, hn, hid⟩ := (find?_eq_some_iff h.ids).mp houtput
  have hsame : i = root := Option.some.inj (hi.symm.trans hroot)
  rw [hsame] at hn
  exact (find?_eq_some_iff hids).mpr ⟨n, hf root n hn, hid⟩

/-- A document with its nodes in another order can be loaded as well. -/
lemma exists_rearranged (h : d.Loaded g) (hperm : d'.nodes.Perm d.nodes)
    (houtput : d'.output = d.output) : ∃ g', d'.Loaded g' := by
  obtain ⟨f, hf⟩ := exists_moves hperm.symm.subset
  have hids : (d'.nodes.map Node.id).Nodup := (hperm.map Node.id).nodup_iff.mpr h.ids
  obtain ⟨filled, hfilled⟩ : ∃ filled, List.Forall₂ d'.Filled d'.nodes filled := by
    refine exists_forall₂_iff.mpr fun n hn => ?_
    obtain ⟨node, hnode⟩ := exists_forall₂_iff.mp ⟨g.nodes, h.filled⟩ n (hperm.subset hn)
    exact ⟨node.relocate f, hnode.relocate hf⟩
  obtain ⟨root, _, hroot⟩ := h.output
  refine ⟨⟨filled, some (f root)⟩, hids, hfilled, f root, ?_, rfl⟩
  rw [houtput]
  exact h.find?_output hf hids hroot

/-- The graph of a document whose nodes have moved is the graph relocated. -/
theorem relocation (h : d.Loaded g) (h' : d'.Loaded g') (houtput : d'.output = d.output)
    (hf : d.Moves d' f) : g.Relocation g' f := by
  have hnode : ∀ id, g.Reachable id → ∃ n node, g.nodes[id]? = some node ∧
      d.nodes[id]? = some n ∧ d.Filled n node := by
    intro id hid
    obtain ⟨node, hnode⟩ := Graph.exists_node (h.lt_length_of_reachable hid)
    obtain ⟨n, hn, hfilled⟩ := exists_partner h.filled hnode
    exact ⟨n, node, hnode, hn, hfilled⟩
  refine ⟨?_, fun id hid => ?_, fun a ha b hb hab => ?_, fun id hid hnone => ?_⟩
  · obtain ⟨root, _, hroot⟩ := h.output
    obtain ⟨root', hfound, hroot'⟩ := h'.output
    rw [houtput, h.find?_output hf h'.ids hroot] at hfound
    rw [hroot, hroot', Option.map_some, hfound]
  · obtain ⟨n, node, hnode, hn, hfilled⟩ := hnode id hid
    obtain ⟨node', hnode'⟩ := Graph.exists_node (h'.lt_length (hf id n hn))
    obtain ⟨n', hn', hfilled'⟩ := exists_partner h'.filled hnode'
    rw [hf id n hn] at hn'
    obtain rfl := Option.some.inj hn'
    rw [hnode, hnode', Option.map_some, hfilled'.unique h'.ids (hfilled.relocate hf)]
  · obtain ⟨n, _, _, hn, _⟩ := hnode a ha
    obtain ⟨m, _, _, hm, _⟩ := hnode b hb
    have hsame : d'.nodes[f a]? = some m := by rw [hab, hf b m hm]
    rw [hf a n hn] at hsame
    exact place_unique h.ids hn hm (by rw [Option.some.inj hsame])
  · obtain ⟨_, node, hnode, _, _⟩ := hnode id hid
    rw [hnone] at hnode
    cases hnode

end Loaded

/-- Two shaders for two documents have the same text, and their variables belong one by one to the
same nodes of the documents. -/
structure SameShader (d d' : Document) (s s' : Shader) : Prop where
  source : s'.source = s.source
  statements : s'.statements = s.statements
  resultType : s'.result.type = s.result.type
  resultName : s'.result.name = s.result.name
  bindings : List.Forall₂ (fun b b' => b'.2.type = b.2.type ∧ b'.2.name = b.2.name ∧
    ∃ n, d.nodes[b.1]? = some n ∧ d'.nodes[b'.1]? = some n) s.bindings s'.bindings

/-- The shader of a document whose nodes have moved is the same up to the places. -/
lemma sameShader_relocate (hf : d.Moves d' f) {g : Graph} (h : d.Loaded g) {options : Options}
    {s : Shader} (hs : (g.compile options).result = .ok s) : SameShader d d' s (s.relocate f) where
  source := rfl
  statements := rfl
  resultType := rfl
  resultName := rfl
  bindings := by
    obtain ⟨order, _, a, horder, hemits, _, _, _, rfl⟩ := Graph.exists_emits_of_compile hs
    refine List.forall₂_map_right_iff.mpr (List.forall₂_same.mpr fun b hb => ⟨rfl, rfl, ?_⟩)
    obtain ⟨made, hmade, rfl⟩ := List.mem_map.mp hb
    have hmem : made.symbol.node ∈ order := by
      rw [← hemits.map_node]
      exact List.mem_map_of_mem hmade
    have hreach := ((Graph.dependencyOrder_of_evaluate horder).mem_iff _).mp hmem
    have hlt : made.symbol.node < d.nodes.length := by
      rw [h.filled.length_eq]
      exact h.lt_length_of_reachable hreach
    have hn := List.getElem?_eq_getElem hlt
    exact ⟨_, hn, hf _ _ hn⟩

/-- The order in which a document lists its nodes does not matter.  With the nodes in another order
it can be loaded just if it could be loaded before.  Compiling the two graphs then gives the same
error, or shaders with the same text and with variables for the same nodes in the same order. -/
theorem load_and_compile_rearranged (d : Document) (nodes : List Node)
    (hperm : nodes.Perm d.nodes) :
    ((∃ m, d.load.result = .ok m) ↔ ∃ m, { d with nodes := nodes }.load.result = .ok m) ∧
      ∀ m m', d.load.result = .ok m → { d with nodes := nodes }.load.result = .ok m' →
        ∀ options,
          (∃ e, (m.graph.compile options).result = .error e ∧
            (m'.graph.compile options).result = .error e) ∨
          ∃ s s', (m.graph.compile options).result = .ok s ∧
            (m'.graph.compile options).result = .ok s' ∧
            SameShader d { d with nodes := nodes } s s' := by
  refine ⟨?_, fun m m' hm hm' options => ?_⟩
  · rw [exists_load_iff, exists_load_iff]
    constructor
    · rintro ⟨g, hg⟩
      exact hg.exists_rearranged hperm rfl
    · rintro ⟨g, hg⟩
      exact hg.exists_rearranged hperm.symm rfl
  · have hloaded := loaded_of_load hm
    obtain ⟨f, hf⟩ : ∃ f, d.Moves { d with nodes := nodes } f := exists_moves hperm.symm.subset
    have hrelocation := hloaded.relocation (loaded_of_load hm') rfl hf
    rw [hrelocation.compile_eq options]
    cases hresult : (m.graph.compile options).result with
    | error e => exact Or.inl ⟨e, rfl, by rw [Outcome.relocate, hresult]; rfl⟩
    | ok s =>
      refine Or.inr ⟨s, s.relocate f, rfl, ?_, sameShader_relocate hf hloaded hresult⟩
      rw [Outcome.relocate, hresult]
      rfl

/-- A document that lists every node before the nodes it links to. -/
def layered : Document where
  version := "1.0"
  metadata := {}
  nodes :=
    [⟨"out", "MaterialOutput", none, [("Surface", .link "blend")]⟩,
      ⟨"blend", "Mix", some "Screen",
        [("Color1", .link "hue"), ("Color2", .value (.string "tint") none)]⟩,
      ⟨"hue", "HSV", none, []⟩]
  output := "out"
  options := none

/-- Listed the other way round, the document can be loaded as well, and has the same shader. -/
theorem load_and_compile_layered :
    layered.nodes.reverse.Perm layered.nodes ∧ ∃ m m' s s', layered.load.result = .ok m ∧
      { layered with nodes := layered.nodes.reverse }.load.result = .ok m' ∧
      (m.graph.compile {}).result = .ok s ∧ (m'.graph.compile {}).result = .ok s' ∧
      SameShader layered { layered with nodes := layered.nodes.reverse } s s' := by
  let m : Material := ⟨"", ⟨
    [(MaterialGraph.Node.new "out" .materialOutput).bind "Surface" (some (.connection 1)),
      ((MaterialGraph.Node.new "blend" (.mix .screen)).bind "Color1" (some (.connection 2))).bind
        "Color2" (some (.literal ⟨.vec3, "tint"⟩)),
      MaterialGraph.Node.new "hue" .hsv],
    some 0⟩, {}⟩
  have hload : layered.load.result = .ok m := rfl
  have horder : m.graph.evaluate = .ok [2, 1, 0] := by cbv
  have hnone : (m.graph.emit SymbolTable.empty.push [2, 1, 0]).failure = none := by cbv
  obtain ⟨s, hcompile⟩ := Graph.exists_shader_of_failure_eq_none {} horder rfl (by decide) hnone
  have hs : (m.graph.compile {}).result = .ok s := by rw [hcompile]
  have hperm : layered.nodes.reverse.Perm layered.nodes := List.reverse_perm _
  obtain ⟨hiff, hsame⟩ := load_and_compile_rearranged layered layered.nodes.reverse hperm
  obtain ⟨m', hload'⟩ := hiff.mp ⟨m, hload⟩
  refine ⟨hperm, m, m', s, ?_⟩
  rcases hsame m m' hload hload' {} with ⟨e, he, _⟩ | ⟨t, s', ht, hs', hshader⟩
  · rw [hs] at he
    cases he
  · rw [hs] at ht
    obtain rfl := Except.ok.inj ht
    exact ⟨s', hload, hload', hs, hs', hshader⟩

end Document

end MaterialGraph
