import Mathlib
import MaterialGraph.Document.Load
import MaterialGraph.Proofs.Graph.Authoring
import MaterialGraph.Proofs.Kind.Naming
import MaterialGraph.Proofs.Result

/-!
# What loading a document means

The meaning of a document, said without passes over it: which kind a node has (`Node.HasKind`),
which text a value stands for (`Denotes`), what an input puts on a socket (`Binds`), and with these,
which documents can be loaded (`Loadable`) and what their materials are (`Describes`).

Each stage of loading is matched with its part of the meaning by one statement about when it
succeeds: `resolveAll_eq_ok_iff` for the nodes, `bindInput_eq_ok_iff` for an input,
`bindInputs_eq_ok_iff` for the inputs of a node, where `Fills` keeps the inputs in their order, and
`bindAll_eq_ok_iff` for all of them.  That the order of the inputs does not matter is the content of
`Fills.bound`.

Main statement: `load_ok_iff_and_describes`.
-/

namespace MaterialGraph.Document

/-! ### The meaning of a document -/

/-- The kind of a node has the type of the node as its name.  It is in the mode that the node asks
for, if there is a mode of this name, and in the standard mode otherwise. -/
inductive Node.HasKind (n : Node) : Kind → Prop where
  | named {k : Kind} {mode : String} (hmode : n.mode = some mode) (htype : k.typeName = n.type)
      (hname : k.modeName? = some mode) : HasKind n k
  | standard {k : Kind} (hk : k ∈ Kind.catalog) (htype : k.typeName = n.type)
      (hmode : ∀ mode, n.mode = some mode → ∀ other : Kind, other.typeName = n.type →
        other.modeName? ≠ some mode) : HasKind n k

/-- The text that a value stands for on a socket of the given type: a string that is not blank is
the text itself, a number stands for a `float` and is written with the precision of the 32-bit
format, and two, three or four numbers in an array stand for the vector of as many components. -/
inductive Denotes : ValueType → Json.Value → String → Prop where
  | text {type : ValueType} {s : String} (hs : ∃ c ∈ s.toList, Text.isBlank c = false) :
      Denotes type (.string s) s
  | number {n : Json.Number} :
      Denotes .float (.number n) (Binary.convert Binary.single n.toDouble).fixedText
  | vector {type : ValueType} {ns : List Json.Number}
      (htype : (ns.length, type) ∈ [(2, .vec2), (3, .vec3), (4, .vec4)]) :
      Denotes type (.array (ns.map .number)) ("vec" ++ Nat.repr ns.length ++ "(" ++ ", ".intercalate
        (ns.map fun n => (Binary.convert Binary.single n.toDouble).fixedText) ++ ")")

/-- The texts by which an annotation may ask for a type. -/
def annotations : ValueType → List String
  | .float => ["float", "f32"]
  | .vec2 => ["vec2", "vec2f"]
  | .vec3 => ["vec3", "vec3f", "color"]
  | .vec4 => ["vec4", "vec4f"]
  | .sampler1D => ["sampler1D"]
  | .sampler2D => ["sampler2D"]

/-- An annotation, if there is one, asks for the given type. -/
def Annotates (type : ValueType) (spelling : Option String) : Prop :=
  ∀ s, spelling = some s → s ∈ annotations type

/-- What an input puts on a socket of the given type: a link connects it to the place of the node
with the id, and a value puts a literal of that type there. -/
inductive Binds (d : Document) (type : ValueType) : Input → Binding → Prop where
  | link {id : String} {i : NodeId} {n : Node} (hn : d.nodes[i]? = some n) (hid : n.id = id) :
      Binds d type (.link id) (.connection i)
  | value {v : Json.Value} {spelling : Option String} {text : String}
      (hspelling : Annotates type spelling) (htext : Denotes type v text) :
      Binds d type (.value v spelling) (.literal ⟨type, text⟩)

/-- What a socket holds after the inputs of its node: what the last input of its name puts there,
or what it held before if no input has its name. -/
inductive Bound (d : Document) (inputs : List (String × Input)) (name : String) (type : ValueType)
    (held : Option Binding) : Option Binding → Prop where
  | listed {before after : List (String × Input)} {input : Input} {binding : Binding}
      (hinputs : inputs = before ++ (name, input) :: after)
      (hlast : ∀ entry ∈ after, entry.1 ≠ name) (hbinds : d.Binds type input binding) :
      Bound d inputs name type held (some binding)
  | unlisted (hinputs : ∀ entry ∈ inputs, entry.1 ≠ name) : Bound d inputs name type held held

/-- A document that can be loaded. -/
structure Loadable (d : Document) : Prop where
  types : ∀ n ∈ d.nodes, ∃ k ∈ Kind.catalog, k.typeName = n.type
  ids : (d.nodes.map Node.id).Nodup
  inputs : ∀ n ∈ d.nodes, ∀ k : Kind, k.typeName = n.type → ∀ entry ∈ n.inputs,
    ∃ spec ∈ k.sockets, spec.name = entry.1 ∧ ∃ binding, d.Binds spec.type entry.2 binding
  output : ∃ n ∈ d.nodes, n.id = d.output

/-- A node of a graph is what a node of a document stands for. -/
structure Represents (d : Document) (n : Node) (node : MaterialGraph.Node) : Prop where
  name : node.name = n.id
  kind : n.HasKind node.kind
  sockets : List.Forall₂ (fun spec s => s.name = spec.name ∧ s.type = spec.type ∧
    d.Bound n.inputs spec.name spec.type (spec.default.map .literal) s.binding)
    node.kind.sockets node.sockets

/-- A material is what a document stands for. -/
structure Describes (d : Document) (m : Material) : Prop where
  name : m.name = d.metadata.name
  options : m.options = d.options.getD {}
  nodes : List.Forall₂ d.Represents d.nodes m.graph.nodes
  root : ∃ i n, d.nodes[i]? = some n ∧ n.id = d.output ∧ m.graph.root = some i

/-! ### Nodes -/

namespace Node

variable {n : Node} {k k' : Kind}

/-- The name of a node's kind. -/
lemma HasKind.typeName (h : n.HasKind k) : k.typeName = n.type := by
  cases h with
  | named _ htype _ => exact htype
  | standard _ htype _ => exact htype

/-- A node has one kind at most. -/
lemma HasKind.unique (h : n.HasKind k) (h' : n.HasKind k') : k = k' := by
  cases h with
  | @named mode hmode htype hname =>
    cases h' with
    | @named mode' hmode' htype' hname' =>
      rw [hmode] at hmode'
      obtain rfl := Option.some.inj hmode'
      obtain ⟨standard, hstandard, htypeName, _, hwith⟩ := k.exists_standard
      have hsame : standard.withMode mode = .ok k' :=
        (Kind.withMode_eq_ok_iff hstandard).mpr ⟨by rw [htype', htypeName, htype], hname'⟩
      rw [hwith mode hname] at hsame
      exact Except.ok.inj hsame
    | standard _ _ hnone => exact absurd hname (hnone mode hmode k htype)
  | standard hk htype hnone =>
    cases h' with
    | named hmode htype' hname => exact absurd hname (hnone _ hmode k' htype')
    | standard hk' htype' _ =>
      have hfound := Kind.ofTypeName?_eq_some_iff.mpr ⟨hk, htype⟩
      rw [Kind.ofTypeName?_eq_some_iff.mpr ⟨hk', htype'⟩] at hfound
      exact (Option.some.inj hfound).symm

/-- A kind that a node is resolved to is the kind of the node. -/
lemma hasKind_of_resolve {warning : Option Warning} (h : n.resolve = .ok (k, warning)) :
    n.HasKind k := by
  unfold resolve at h
  cases hfound : Kind.ofTypeName? n.type with
  | none => simp [hfound] at h
  | some standard =>
    obtain ⟨hstandard, htype⟩ := Kind.ofTypeName?_eq_some_iff.mp hfound
    cases hmode : n.mode with
    | none =>
      obtain rfl : standard = k := by
        simp only [hfound, hmode, Except.ok.injEq, Prod.mk.injEq] at h
        exact h.1
      exact HasKind.standard hstandard htype (by simp [hmode])
    | some mode =>
      cases hwith : standard.withMode mode with
      | ok named =>
        obtain rfl : named = k := by
          simp only [hfound, hmode, hwith, Except.ok.injEq, Prod.mk.injEq] at h
          exact h.1
        obtain ⟨hname, hmodeName⟩ := (Kind.withMode_eq_ok_iff hstandard).mp hwith
        exact HasKind.named hmode (hname.trans htype) hmodeName
      | error e =>
        obtain rfl : standard = k := by
          rw [Kind.eq_unknownMode_of_withMode hwith] at hwith
          simp only [hfound, hmode, hwith, GraphError.recoverable, if_true, Except.ok.injEq,
            Prod.mk.injEq] at h
          exact h.1
        refine HasKind.standard hstandard htype fun m hm other hother hname => ?_
        rw [hmode] at hm
        obtain rfl := Option.some.inj hm
        -- a kind with this mode would have been found
        rw [(Kind.withMode_eq_ok_iff hstandard).mpr ⟨hother.trans htype.symm, hname⟩] at hwith
        cases hwith

/-- A node whose type is in the catalog is resolved, whatever its mode is. -/
lemma exists_resolve (h : ∃ k ∈ Kind.catalog, k.typeName = n.type) :
    ∃ k warning, n.resolve = .ok (k, warning) := by
  obtain ⟨standard, hstandard, htype⟩ := h
  unfold resolve
  rw [Kind.ofTypeName?_eq_some_iff.mpr ⟨hstandard, htype⟩]
  cases n.mode with
  | none => exact ⟨standard, none, rfl⟩
  | some mode =>
    cases hwith : standard.withMode mode with
    | ok named => exact ⟨named, none, by simp only [hwith]⟩
    | error e =>
      rw [Kind.eq_unknownMode_of_withMode hwith] at hwith
      exact ⟨standard, some ⟨n.id, standard, mode⟩, by
        simp only [hwith, GraphError.recoverable, if_true]⟩

/-- A node has a kind just if its type is in the catalog. -/
lemma exists_hasKind_iff : (∃ k, n.HasKind k) ↔ ∃ k ∈ Kind.catalog, k.typeName = n.type := by
  constructor
  · rintro ⟨k, hk⟩
    obtain ⟨standard, hstandard, hname, _⟩ := k.exists_standard
    exact ⟨standard, hstandard, hname.trans hk.typeName⟩
  · intro h
    obtain ⟨k, warning, hresolve⟩ := exists_resolve h
    exact ⟨k, hasKind_of_resolve hresolve⟩

end Node

/-- A node of a graph is new and made for a node of a document. -/
def Made (n : Node) (node : MaterialGraph.Node) : Prop :=
  ∃ k, n.HasKind k ∧ node = MaterialGraph.Node.new n.id k

/-- Only one new node is made for a node of a document. -/
lemma made_iff {n : Node} {k : Kind} (hk : n.HasKind k) {node : MaterialGraph.Node} :
    Made n node ↔ node = MaterialGraph.Node.new n.id k := by
  constructor
  · rintro ⟨k', hk', rfl⟩
    rw [hk.unique hk']
  · rintro rfl
    exact ⟨k, hk, rfl⟩

/-- The first pass succeeds just if the ids are new and different and every node has a kind. -/
lemma resolveAll_eq_ok_iff {seen : List String} {ns : List Node}
    {nodes : List MaterialGraph.Node} :
    (resolveAll seen ns).2 = .ok nodes ↔
      (ns.map Node.id).Nodup ∧ (∀ n ∈ ns, n.id ∉ seen) ∧ List.Forall₂ Made ns nodes := by
  induction ns generalizing seen nodes with
  | nil => simp [resolveAll, eq_comm]
  | cons n ns ih =>
    unfold resolveAll
    cases hresolve : n.resolve with
    | error e =>
      refine ⟨by simp, ?_⟩
      rintro ⟨_, _, hmade⟩
      obtain ⟨_, _, ⟨k, hk, _⟩, _, _⟩ := List.forall₂_cons_left_iff.mp hmade
      obtain ⟨_, _, hok⟩ := Node.exists_resolve (Node.exists_hasKind_iff.mp ⟨k, hk⟩)
      rw [hresolve] at hok
      cases hok
    | ok result =>
      have hk : n.HasKind result.1 := Node.hasKind_of_resolve hresolve
      by_cases hseen : n.id ∈ seen
      · simp [hseen]
      · simp only [List.contains_iff_mem, hseen, if_false, map_eq_ok_iff, ih, List.map_cons,
          List.nodup_cons, List.forall₂_cons_left_iff, made_iff hk]
        constructor
        · rintro ⟨rest, ⟨hnodup, hnew, hmade⟩, rfl⟩
          refine ⟨⟨fun hmem => ?_, hnodup⟩, List.forall_mem_cons.mpr ⟨hseen, fun m hm => ?_⟩,
            _, rest, rfl, hmade, rfl⟩
          · obtain ⟨m, hm, hid⟩ := List.mem_map.mp hmem
            exact hnew m hm (hid ▸ List.mem_cons_self)
          · exact fun hmem => hnew m hm (List.mem_cons_of_mem _ hmem)
        · rintro ⟨⟨hnotMem, hnodup⟩, hnew, _, rest, rfl, hmade, rfl⟩
          refine ⟨rest, ⟨hnodup, fun m hm hmem => ?_, hmade⟩, rfl⟩
          rcases List.mem_cons.mp hmem with hid | hmem
          · exact hnotMem (List.mem_map.mpr ⟨m, hm, hid⟩)
          · exact hnew m (List.mem_cons_of_mem _ hm) hmem

/-! ### Values -/

/-- A type is read from an annotation just if the annotation asks for it. -/
lemma parse_eq_ok_iff_mem_annotations {s : String} {type : ValueType} :
    ValueType.parse s = .ok type ↔ s ∈ annotations type := by
  constructor
  · intro h
    have hmem : (s, type) ∈ ValueType.spellings := by
      unfold ValueType.parse at h
      split at h
      · rename_i found hfound
        obtain ⟨before, after, hsplit, -⟩ := List.lookup_eq_some_iff.mp hfound
        rw [hsplit, Except.ok.inj h]
        exact List.mem_append_right _ List.mem_cons_self
      · cases h
    cases type <;> simpa [ValueType.spellings, annotations] using hmem
  · have hall : ∀ s ∈ annotations type, ValueType.parse s = .ok type := by
      cases type <;> decide
    exact hall s

/-- A text is not blank just if one of its characters is not. -/
lemma allBlank_eq_false_iff {s : String} :
    Text.allBlank s.toList = false ↔ ∃ c ∈ s.toList, Text.isBlank c = false := by
  simp [Text.allBlank]

/-- Texts are put one after the other with a separator between two of them. -/
lemma separated_eq_intercalate (separator : String) (texts : List String) :
    Text.separated separator texts = separator.intercalate texts := by
  induction texts with
  | nil => rfl
  | cons text rest ih =>
    cases rest with
    | nil => exact String.intercalate_singleton.symm
    | cons next rest =>
      rw [String.intercalate_cons_cons, ← ih]
      rfl

/-- There are vectors of two, three and four components. -/
lemma vector?_eq_some_iff {n : Nat} {type : ValueType} :
    ValueType.vector? n = some type ↔ (n, type) ∈ [(2, .vec2), (3, .vec3), (4, .vec4)] := by
  unfold ValueType.vector?
  split <;> simp_all [eq_comm]

/-- The number of components is part of the name of a vector. -/
lemma name_of_vector?_eq_some {n : Nat} {type : ValueType} (h : ValueType.vector? n = some type) :
    type.name = "vec" ++ Nat.repr n := by
  rw [vector?_eq_some_iff] at h
  simp only [List.mem_cons, Prod.mk.injEq, List.not_mem_nil, or_false] at h
  rcases h with ⟨rfl, rfl⟩ | ⟨rfl, rfl⟩ | ⟨rfl, rfl⟩
  · decide
  · decide
  · decide

/-- Components make a vector just if there are two, three or four of them, and its text is a call of
the function that has the name of the vector. -/
lemma vector_eq_ok_iff {parts : List String} {type : ValueType} {text : String} :
    Written.vector parts = .ok ⟨some type, text⟩ ↔
      (parts.length, type) ∈ [(2, .vec2), (3, .vec3), (4, .vec4)] ∧
        text = "vec" ++ Nat.repr parts.length ++ "(" ++ ", ".intercalate parts ++ ")" := by
  rw [← vector?_eq_some_iff]
  unfold Written.vector
  cases hvector : ValueType.vector? parts.length with
  | none => simp
  | some t =>
    have htext : (Literal.vector t parts).text =
        "vec" ++ Nat.repr parts.length ++ "(" ++ ", ".intercalate parts ++ ")" := by
      unfold Literal.vector
      rw [separated_eq_intercalate, name_of_vector?_eq_some hvector]
    simp only [Except.ok.injEq, Written.mk.injEq, Option.some.injEq, htext, eq_comm]

/-- The components of a vector can be written just if they are numbers. -/
lemma components_eq_ok_iff {vs : List Json.Value} {parts : List String} :
    Written.components vs = .ok parts ↔
      ∃ ns : List Json.Number, vs = ns.map .number ∧ parts = ns.map Written.number := by
  induction vs generalizing parts with
  | nil =>
    constructor
    · intro h
      exact ⟨[], rfl, by simpa [Written.components, eq_comm] using h⟩
    · rintro ⟨ns, hns, rfl⟩
      obtain rfl : ns = [] := by simpa using hns.symm
      rfl
  | cons v vs ih =>
    cases v with
    | number n =>
      simp only [Written.components, map_eq_ok_iff, ih]
      constructor
      · rintro ⟨_, ⟨ns, rfl, rfl⟩, rfl⟩
        exact ⟨n :: ns, rfl, rfl⟩
      · rintro ⟨ns, hns, rfl⟩
        cases ns with
        | nil => cases hns
        | cons m ns =>
          obtain ⟨hm, hrest⟩ := List.cons.inj hns
          rw [Json.Value.number.inj hm]
          exact ⟨ns.map Written.number, ⟨ns, hrest, rfl⟩, rfl⟩
    | _ =>
      refine ⟨by simp [Written.components], ?_⟩
      rintro ⟨ns, hns, _⟩
      cases ns <;> simp at hns

/-- A text without a type of its own is written just for a string that is not blank. -/
lemma ofValue_eq_untyped_iff {v : Json.Value} {text : String} :
    Written.ofValue v = .ok ⟨none, text⟩ ↔
      v = .string text ∧ Text.allBlank text.toList = false := by
  cases v with
  | string s =>
    cases hs : Text.allBlank s.toList with
    | true =>
      refine ⟨by simp [Written.ofValue, hs], ?_⟩
      rintro ⟨⟨⟩, h⟩
      rw [hs] at h
      cases h
    | false =>
      refine ⟨fun h => ?_, ?_⟩
      · obtain rfl : s = text := by simpa [Written.ofValue, hs] using h
        exact ⟨rfl, hs⟩
      · rintro ⟨⟨⟩, _⟩
        simp [Written.ofValue, hs]
  | array vs =>
    refine ⟨fun h => ?_, by simp⟩
    simp only [Written.ofValue, Written.vector] at h
    cases hparts : Written.components vs with
    | error e => simp [hparts] at h
    | ok parts =>
      cases htype : ValueType.vector? parts.length <;> simp [hparts, htype] at h
  | _ => simp [Written.ofValue]

/-- A text with a type of its own is written just for the numbers and arrays that stand for it. -/
lemma ofValue_eq_typed_iff {v : Json.Value} {type : ValueType} {text : String} :
    Written.ofValue v = .ok ⟨some type, text⟩ ↔ Denotes type v text ∧ ∀ s, v ≠ .string s := by
  cases v with
  | number n =>
    simp only [Written.ofValue, Except.ok.injEq, Written.mk.injEq, Option.some.injEq]
    constructor
    · rintro ⟨rfl, rfl⟩
      exact ⟨Denotes.number, by simp⟩
    · rintro ⟨⟨⟩, _⟩
      exact ⟨rfl, rfl⟩
  | array vs =>
    simp only [Written.ofValue]
    constructor
    · intro h
      cases hparts : Written.components vs with
      | error e => simp [hparts] at h
      | ok parts =>
        obtain ⟨ns, rfl, rfl⟩ := components_eq_ok_iff.mp hparts
        rw [hparts] at h
        obtain ⟨htype, rfl⟩ := vector_eq_ok_iff.mp h
        rw [List.length_map] at htype ⊢
        exact ⟨Denotes.vector htype, by simp⟩
    · rintro ⟨h, _⟩
      cases h with
      | @vector _ ns htype =>
        have hlength : (ns.map Written.number).length = ns.length := List.length_map _
        rw [components_eq_ok_iff.mpr ⟨ns, rfl, rfl⟩]
        exact vector_eq_ok_iff.mpr ⟨hlength ▸ htype, by rw [hlength]; rfl⟩
  | string s =>
    by_cases hs : Text.allBlank s.toList = true <;> simp [Written.ofValue, hs]
  | _ =>
    refine ⟨by simp [Written.ofValue], ?_⟩
    rintro ⟨⟨⟩, _⟩

/-- An annotation spells a type just if it can be read and is read as nothing else. -/
lemma annotates_iff (node socket : String) {type : ValueType} {spelling : Option String} :
    Annotates type spelling ↔ ∃ annotated, annotatedType node socket spelling = .ok annotated ∧
      ∀ t, annotated = some t → t = type := by
  cases spelling with
  | none => exact ⟨fun _ => ⟨none, rfl, by simp⟩, fun _ => by simp [Annotates]⟩
  | some s =>
    simp only [Annotates, Option.some.injEq, forall_eq', annotatedType,
      ← parse_eq_ok_iff_mem_annotations]
    cases hparse : ValueType.parse s with
    | error e => simp
    | ok t => simp [eq_comm]

/-- A literal of the declared type is made just if the annotation does not say otherwise and the
value stands for the text. -/
lemma literal_eq_ok_iff {node socket : String} {declared : ValueType}
    {annotated : Option ValueType} {v : Json.Value} {value : Literal} :
    literal node socket declared annotated v = .ok value ∧ declared = value.type ↔
      (∀ t, annotated = some t → t = declared) ∧
        ∃ text, Denotes declared v text ∧ value = ⟨declared, text⟩ := by
  unfold literal
  by_cases hstring : ∃ s, v = .string s
  · -- a string takes the type it is given
    obtain ⟨s, rfl⟩ := hstring
    cases hs : Text.allBlank s.toList with
    | true =>
      refine ⟨by simp [Written.ofValue, hs], ?_⟩
      rintro ⟨_, _, htext, _⟩
      cases htext with
      | text hs' =>
        rw [← allBlank_eq_false_iff, hs] at hs'
        cases hs'
    | false =>
      rw [ofValue_eq_untyped_iff.mpr ⟨rfl, hs⟩]
      simp only [Except.ok.injEq]
      constructor
      · rintro ⟨rfl, htype⟩
        have htype : annotated.getD declared = declared := htype.symm
        refine ⟨fun t ht => ?_, s, Denotes.text (allBlank_eq_false_iff.mp hs), by rw [htype]⟩
        rw [← htype, ht, Option.getD_some]
      · rintro ⟨hannotated, _, ⟨_⟩, rfl⟩
        refine ⟨?_, rfl⟩
        cases annotated with
        | none => rfl
        | some t => rw [Option.getD_some, hannotated t rfl]
  · -- any other value brings its type along
    have hother : ∀ s, v ≠ .string s := fun s hs => hstring ⟨s, hs⟩
    cases hwritten : Written.ofValue v with
    | error e =>
      refine ⟨by simp, ?_⟩
      rintro ⟨_, text, htext, _⟩
      rw [ofValue_eq_typed_iff.mpr ⟨htext, hother⟩] at hwritten
      cases hwritten
    | ok written =>
      obtain ⟨_ | type, text⟩ := written
      · exact absurd (ofValue_eq_untyped_iff.mp hwritten).1 (hother text)
      · have htyped : ∀ t text', Denotes t v text' → type = t ∧ text = text' := by
          intro t text' htext
          rw [ofValue_eq_typed_iff.mpr ⟨htext, hother⟩] at hwritten
          simpa [eq_comm] using hwritten
        have hdenotes := (ofValue_eq_typed_iff.mp hwritten).1
        constructor
        · rintro ⟨hok, htype⟩
          cases annotated with
          | none =>
            obtain rfl : (⟨type, text⟩ : Literal) = value := by simpa using hok
            obtain rfl : declared = type := htype
            exact ⟨by simp, text, hdenotes, rfl⟩
          | some t =>
            by_cases ht : type = t
            · obtain rfl : (⟨type, text⟩ : Literal) = value := by simpa [ht] using hok
              obtain rfl : declared = type := htype
              exact ⟨by simp [ht], text, hdenotes, rfl⟩
            · simp [ht] at hok
        · rintro ⟨hannotated, text', htext, rfl⟩
          obtain ⟨rfl, rfl⟩ := htyped _ _ htext
          cases annotated with
          | none => simp
          | some t => simp [hannotated t rfl]

/-! ### Inputs -/

variable {d : Document}

/-- If the ids are different, the place of an id is the one of any node that has it. -/
lemma find?_eq_some_iff (hids : (d.nodes.map Node.id).Nodup) {id : String} {i : NodeId} :
    d.find? id = some i ↔ ∃ n, d.nodes[i]? = some n ∧ n.id = id := by
  unfold find?
  rw [List.findIdx?_eq_some_iff_getElem]
  constructor
  · rintro ⟨hi, hid, _⟩
    exact ⟨_, List.getElem?_eq_getElem hi, by simpa using hid⟩
  · rintro ⟨n, hn, rfl⟩
    obtain ⟨hi, rfl⟩ := List.getElem?_eq_some_iff.mp hn
    refine ⟨hi, by simp, fun j hj => ?_⟩
    have hi' : i < (d.nodes.map Node.id).length := by simpa using hi
    have hj' : j < (d.nodes.map Node.id).length := Nat.lt_trans hj hi'
    have hne : (d.nodes.map Node.id)[j] ≠ (d.nodes.map Node.id)[i] :=
      fun heq => absurd (hids.getElem_inj_iff.mp heq) (Nat.ne_of_lt hj)
    simpa using hne

/-- A result of an operation on the graph is taken over as it is. -/
lemma onGraph_eq_ok_iff {α : Type} {x : Except GraphError α} {a : α} :
    onGraph x = .ok a ↔ x = .ok a := by
  cases x <;> simp [onGraph]

section BindInput

variable {g g' : Graph} {node socket : String} {consumer : NodeId} {n : MaterialGraph.Node}

/-- A link is bound just if it leads to a node and the socket is there. -/
lemma bindInput_link_eq_ok_iff (hids : (d.nodes.map Node.id).Nodup)
    (hlength : g.nodes.length = d.nodes.length) (hn : g.nodes[consumer]? = some n) {id : String} :
    d.bindInput node consumer g socket (.link id) = .ok g' ↔
      ∃ s i, n.socket? socket = some s ∧ d.find? id = some i ∧
        g' = { g with nodes := g.nodes.set consumer (n.bind socket (some (.connection i))) } := by
  cases hfind : d.find? id with
  | none => simp [bindInput, hfind]
  | some i =>
    -- the linked node is a node of the graph, so connecting asks for the socket only
    obtain ⟨target, htarget, _⟩ := (find?_eq_some_iff hids).mp hfind
    obtain ⟨hlt, _⟩ := List.getElem?_eq_some_iff.mp htarget
    have hknown : g.node i = .ok (g.nodes[i]) := by
      unfold Graph.node
      rw [List.getElem?_eq_getElem]
    simp only [bindInput, hfind, onGraph_eq_ok_iff, Graph.connect, hknown,
      Graph.update_eq_ok_iff hn, Node.connect_eq_ok_iff, Option.some.injEq]
    constructor
    · rintro ⟨_, ⟨s, hs, rfl⟩, rfl⟩
      exact ⟨s, i, hs, rfl, rfl⟩
    · rintro ⟨s, _, hs, rfl, rfl⟩
      exact ⟨_, ⟨s, hs, rfl⟩, rfl⟩

/-- A value is bound just if the socket is there, the annotation spells the type of the socket, and
the value stands for a text. -/
lemma bindInput_value_eq_ok_iff (hn : g.nodes[consumer]? = some n) {v : Json.Value}
    {spelling : Option String} :
    d.bindInput node consumer g socket (.value v spelling) = .ok g' ↔
      ∃ s text, n.socket? socket = some s ∧ Annotates s.type spelling ∧ Denotes s.type v text ∧
        g' = { g with
          nodes := g.nodes.set consumer (n.bind socket (some (.literal ⟨s.type, text⟩))) } := by
  have hnode : onGraph (g.node consumer) = .ok n := by
    unfold Graph.node
    rw [hn]
    rfl
  cases hs : n.socket? socket with
  | none => simp [bindInput, bind_eq_ok_iff, hnode, hs]
  | some s =>
    simp only [bindInput, bind_eq_ok_iff, hnode, Except.ok.injEq, exists_eq_left', hs,
      onGraph_eq_ok_iff, Graph.setValue, Graph.update_eq_ok_iff hn, Node.setValue_eq_ok_iff,
      Option.some.injEq, annotates_iff node socket]
    constructor
    · rintro ⟨annotated, hread, value, hvalue, _, ⟨htype, rfl⟩, rfl⟩
      obtain ⟨hannotated, text, htext, rfl⟩ := literal_eq_ok_iff.mp ⟨hvalue, htype⟩
      exact ⟨s, text, rfl, ⟨annotated, hread, hannotated⟩, htext, rfl⟩
    · rintro ⟨_, text, rfl, ⟨annotated, hread, hannotated⟩, htext, rfl⟩
      obtain ⟨hvalue, _⟩ := literal_eq_ok_iff.mpr ⟨hannotated, text, htext, rfl⟩
      exact ⟨annotated, hread, _, hvalue, _, ⟨rfl, rfl⟩, rfl⟩

/-- An input is bound just if the node has the socket and the input fits it. -/
lemma bindInput_eq_ok_iff (hids : (d.nodes.map Node.id).Nodup)
    (hlength : g.nodes.length = d.nodes.length) (hn : g.nodes[consumer]? = some n)
    {input : Input} :
    d.bindInput node consumer g socket input = .ok g' ↔
      ∃ s binding, n.socket? socket = some s ∧ d.Binds s.type input binding ∧
        g' = { g with nodes := g.nodes.set consumer (n.bind socket (some binding)) } := by
  cases input with
  | link id =>
    rw [bindInput_link_eq_ok_iff hids hlength hn]
    simp only [find?_eq_some_iff hids]
    constructor
    · rintro ⟨s, i, hs, ⟨target, htarget, hid⟩, rfl⟩
      exact ⟨s, .connection i, hs, Binds.link htarget hid, rfl⟩
    · rintro ⟨s, _, hs, ⟨htarget, hid⟩, rfl⟩
      exact ⟨s, _, hs, ⟨_, htarget, hid⟩, rfl⟩
  | value v spelling =>
    rw [bindInput_value_eq_ok_iff hn]
    constructor
    · rintro ⟨s, text, hs, hspelling, htext, rfl⟩
      exact ⟨s, _, hs, Binds.value hspelling htext, rfl⟩
    · rintro ⟨s, _, hs, ⟨_, _⟩ | ⟨hspelling, htext⟩, rfl⟩
      exact ⟨s, _, hs, hspelling, htext, rfl⟩

end BindInput

/-- The inputs of a node are put on its sockets one after the other. -/
inductive Fills (d : Document) :
    List (String × Input) → MaterialGraph.Node → MaterialGraph.Node → Prop where
  | nil {n : MaterialGraph.Node} : Fills d [] n n
  | cons {socket : String} {input : Input} {inputs : List (String × Input)}
      {n n' : MaterialGraph.Node} {s : Socket} {binding : Binding}
      (hsocket : n.socket? socket = some s) (hbinds : d.Binds s.type input binding)
      (hrest : Fills d inputs (n.bind socket (some binding)) n') :
      Fills d ((socket, input) :: inputs) n n'

/-- The inputs of a node are bound just if they can be put on its sockets. -/
lemma bindInputs_eq_ok_iff (hids : (d.nodes.map Node.id).Nodup) {g g' : Graph}
    (hlength : g.nodes.length = d.nodes.length) {node : String} {consumer : NodeId}
    {n : MaterialGraph.Node} (hn : g.nodes[consumer]? = some n)
    {inputs : List (String × Input)} :
    d.bindInputs node consumer inputs g = .ok g' ↔
      ∃ n', d.Fills inputs n n' ∧ g' = { g with nodes := g.nodes.set consumer n' } := by
  induction inputs generalizing g n with
  | nil =>
    have hsame : g.nodes.set consumer n = g.nodes := by
      obtain ⟨_, rfl⟩ := List.getElem?_eq_some_iff.mp hn
      exact List.set_getElem_self _
    simp only [bindInputs, Except.ok.injEq]
    constructor
    · rintro rfl
      exact ⟨n, Fills.nil, by rw [hsame]⟩
    · rintro ⟨_, ⟨⟩, rfl⟩
      rw [hsame]
  | cons entry inputs ih =>
    obtain ⟨socket, input⟩ := entry
    obtain ⟨hlt, _⟩ := List.getElem?_eq_some_iff.mp hn
    have hset : ∀ m : MaterialGraph.Node, (g.nodes.set consumer m)[consumer]? = some m :=
      fun m => List.getElem?_set_self hlt
    simp only [bindInputs, bind_eq_ok_iff, bindInput_eq_ok_iff hids hlength hn]
    constructor
    · rintro ⟨_, ⟨s, binding, hs, hbinds, rfl⟩, hrest⟩
      obtain ⟨n', hfills, rfl⟩ := (ih (by simpa using hlength) (hset _)).mp hrest
      exact ⟨n', Fills.cons hs hbinds hfills, by rw [List.set_set]⟩
    · rintro ⟨n', hfills, rfl⟩
      cases hfills with
      | @cons _ _ _ _ _ s binding hs hbinds hrest =>
        refine ⟨_, ⟨s, binding, hs, hbinds, rfl⟩, ?_⟩
        exact (ih (by simpa using hlength) (hset _)).mpr ⟨n', hrest, by rw [List.set_set]⟩

/-! ### Sockets -/

/-- A node stays as its kind declares it when something that fits is put on a socket. -/
lemma Binds.conforms {n : MaterialGraph.Node} (hn : n.Conforms) {socket : String} {s : Socket}
    (hs : n.socket? socket = some s) {input : Input} {binding : Binding}
    (hbinds : d.Binds s.type input binding) : (n.bind socket (some binding)).Conforms := by
  obtain ⟨spec, hspec, hconforms⟩ := Socket.find?_conforms hn hs
  refine MaterialGraph.Node.bind_conforms hn fun found hfound t ht => ?_
  rw [hspec] at hfound
  obtain rfl := Option.some.inj hfound
  refine ⟨ht.name, ht.type, fun value hvalue => ?_, by simp⟩
  cases hbinds with
  | link => simp at hvalue
  | value =>
    obtain rfl := Binding.literal.inj (Option.some.inj hvalue)
    exact hconforms.type.trans ht.type.symm

/-- The inputs of a node that is as its kind declares it can be put on its sockets just if each
of them fits a socket. -/
lemma exists_fills_iff {inputs : List (String × Input)} {n : MaterialGraph.Node}
    (hn : n.Conforms) :
    (∃ n', d.Fills inputs n n') ↔ ∀ entry ∈ inputs, ∃ spec ∈ n.kind.sockets,
      spec.name = entry.1 ∧ ∃ binding, d.Binds spec.type entry.2 binding := by
  induction inputs generalizing n with
  | nil => exact ⟨by simp, fun _ => ⟨n, Fills.nil⟩⟩
  | cons entry inputs ih =>
    obtain ⟨socket, input⟩ := entry
    rw [List.forall_mem_cons]
    constructor
    · rintro ⟨n', hfills⟩
      cases hfills with
      | cons hs hbinds hrest =>
        obtain ⟨spec, hfind, hspec⟩ := Socket.find?_conforms hn hs
        refine ⟨⟨spec, List.mem_of_find?_eq_some hfind, by simpa using List.find?_some hfind,
          _, hspec.type ▸ hbinds⟩, ?_⟩
        exact (ih (hbinds.conforms hn hs)).mp ⟨n', hrest⟩
    · rintro ⟨⟨spec, hspec, rfl, binding, hbinds⟩, hrest⟩
      obtain ⟨s, hs, htype⟩ := hn.exists_socket hspec
      rw [← htype] at hbinds
      obtain ⟨n', hfills⟩ := (ih (hbinds.conforms hn hs)).mpr hrest
      exact ⟨n', Fills.cons hs hbinds hfills⟩

/-- What a socket holds after one more input in front. -/
lemma Bound.cons {inputs : List (String × Input)} {name socket : String} {type : ValueType}
    {held result : Option Binding} {input : Input} {binding : Binding}
    (hbinds : socket = name → d.Binds type input binding)
    (h : d.Bound inputs name type (if name = socket then some binding else held) result) :
    d.Bound ((socket, input) :: inputs) name type held result := by
  cases h with
  | listed hinputs hlast hlater =>
    exact Bound.listed (by rw [hinputs, List.cons_append]) hlast hlater
  | unlisted hinputs =>
    by_cases hname : name = socket
    · rw [if_pos hname]
      have hsplit : (socket, input) :: inputs = [] ++ (name, input) :: inputs := by
        rw [hname, List.nil_append]
      exact Bound.listed hsplit hinputs (hbinds hname.symm)
    · rw [if_neg hname]
      refine Bound.unlisted (List.forall_mem_cons.mpr ⟨?_, hinputs⟩)
      exact fun h => hname h.symm

/-- After the inputs have been put on them one by one, the sockets hold what the last input of
their name puts there, or what they held before. -/
lemma Fills.bound {inputs : List (String × Input)} {n n' : MaterialGraph.Node}
    (h : d.Fills inputs n n') (hn : n.Conforms) :
    n'.name = n.name ∧ n'.kind = n.kind ∧
      List.Forall₂ (fun s s' => s'.name = s.name ∧ s'.type = s.type ∧
        d.Bound inputs s.name s.type s.binding s'.binding) n.sockets n'.sockets := by
  induction h with
  | nil =>
    exact ⟨rfl, rfl, List.forall₂_same.mpr fun s _ => ⟨rfl, rfl, Bound.unlisted (by simp)⟩⟩
  | @cons socket input inputs n n' s binding hs hbinds _ ih =>
    obtain ⟨hname, hkind, hsockets⟩ := ih (hbinds.conforms hn hs)
    refine ⟨hname, hkind, ?_⟩
    have hnames : (n.sockets.map Socket.name).Nodup := hn.nodup_names
    have hbind : (n.bind socket (some binding)).sockets = n.sockets.map fun t =>
        if t.name = socket then { t with binding := some binding } else t :=
      Socket.rebind_eq_map hnames
    -- the socket of the name is the one that was found, so the input fits its type
    have hfound : ∀ t ∈ n.sockets, socket = t.name → d.Binds t.type input binding := by
      intro t ht hsocket
      have hname : s.name = socket := by simpa using List.find?_some hs
      have hsame : t = s := List.inj_on_of_nodup_map hnames ht (List.mem_of_find?_eq_some hs)
        (hsocket.symm.trans hname.symm)
      rw [hsame]
      exact hbinds
    rw [hbind, List.forall₂_map_left_iff] at hsockets
    refine ((List.forall₂_and_left _ _).mpr ⟨hfound, hsockets⟩).imp fun t t' ht => ?_
    obtain ⟨hfits, hname, htype, hbound⟩ := ht
    by_cases hsocket : t.name = socket
    · simp only [if_pos hsocket] at hname htype hbound
      exact ⟨hname, htype, Bound.cons hfits (by simpa only [if_pos hsocket] using hbound)⟩
    · simp only [if_neg hsocket] at hname htype hbound
      exact ⟨hname, htype, Bound.cons hfits (by simpa only [if_neg hsocket] using hbound)⟩

/-! ### Graphs and materials -/

/-- A node of a graph is made for a node of a document, with the inputs on its sockets. -/
def Filled (d : Document) (n : Node) (node : MaterialGraph.Node) : Prop :=
  ∃ made, Made n made ∧ d.Fills n.inputs made node

/-- What is made for a node and filled represents the node. -/
lemma Filled.represents {n : Node} {node : MaterialGraph.Node} (h : d.Filled n node) :
    d.Represents n node := by
  obtain ⟨_, ⟨k, hk, rfl⟩, hfills⟩ := h
  obtain ⟨hname, hkind, hsockets⟩ := hfills.bound (MaterialGraph.Node.new_conforms n.id k)
  have hkind : node.kind = k := hkind
  refine ⟨hname, hkind ▸ hk, ?_⟩
  rw [hkind]
  exact List.forall₂_map_left_iff.mp hsockets

/-- The inputs of a node can be put on its sockets just if each of them fits a socket. -/
lemma exists_filled_iff {n : Node} :
    (∃ node, d.Filled n node) ↔ (∃ k ∈ Kind.catalog, k.typeName = n.type) ∧
      ∀ k : Kind, k.typeName = n.type → ∀ entry ∈ n.inputs, ∃ spec ∈ k.sockets,
        spec.name = entry.1 ∧ ∃ binding, d.Binds spec.type entry.2 binding := by
  constructor
  · rintro ⟨node, made, ⟨k, hk, rfl⟩, hfills⟩
    refine ⟨Node.exists_hasKind_iff.mp ⟨k, hk⟩, fun k' hk' => ?_⟩
    rw [Kind.sockets_eq_of_typeName (hk'.trans hk.typeName.symm)]
    exact (exists_fills_iff (MaterialGraph.Node.new_conforms n.id k)).mp ⟨node, hfills⟩
  · rintro ⟨hcatalog, hinputs⟩
    obtain ⟨k, hk⟩ := Node.exists_hasKind_iff.mpr hcatalog
    obtain ⟨node, hfills⟩ := (exists_fills_iff (MaterialGraph.Node.new_conforms n.id k)).mpr
      (hinputs k hk.typeName)
    exact ⟨node, _, ⟨k, hk, rfl⟩, hfills⟩

/-- The second pass succeeds just if all nodes can be filled.  The induction is on the nodes that
are left; those in `done` have been filled before. -/
lemma bindAll_eq_ok_iff (hids : (d.nodes.map Node.id).Nodup) {ns : List Node}
    {done nodes : List MaterialGraph.Node} (hmade : List.Forall₂ Made ns nodes)
    (hlength : (done ++ nodes).length = d.nodes.length) {root : Option NodeId} {g : Graph} :
    d.bindAll done.length ns ⟨done ++ nodes, root⟩ = .ok g ↔
      ∃ filled, List.Forall₂ d.Filled ns filled ∧ g = ⟨done ++ filled, root⟩ := by
  induction hmade generalizing done with
  | nil => simp [bindAll, eq_comm]
  | @cons n node ns nodes hhead htail ih =>
    have hn : (⟨done ++ node :: nodes, root⟩ : Graph).nodes[done.length]? = some node := by simp
    have hfilled : ∀ node', d.Filled n node' ↔ d.Fills n.inputs node node' := by
      intro node'
      obtain ⟨k, hk, rfl⟩ := hhead
      simp [Filled, made_iff hk]
    have hset : ∀ node', (done ++ node :: nodes).set done.length node' =
        (done ++ [node']) ++ nodes := by
      intro node'
      simp
    have hrest : ∀ node',
        d.bindAll (done.length + 1) ns ⟨(done ++ [node']) ++ nodes, root⟩ = .ok g ↔
          ∃ filled, List.Forall₂ d.Filled ns filled ∧ g = ⟨(done ++ [node']) ++ filled, root⟩ := by
      intro node'
      have hcount : (done ++ [node']).length = done.length + 1 := by simp
      rw [← hcount]
      exact ih (by simpa using hlength)
    simp only [bindAll, bind_eq_ok_iff,
      bindInputs_eq_ok_iff (g := ⟨done ++ node :: nodes, root⟩) hids hlength hn, ← hfilled, hset]
    constructor
    · rintro ⟨_, ⟨node', hnode', rfl⟩, hok⟩
      obtain ⟨filled, hfilled, rfl⟩ := (hrest node').mp hok
      exact ⟨node' :: filled, List.Forall₂.cons hnode' hfilled, by simp⟩
    · rintro ⟨_, hall, rfl⟩
      obtain ⟨node', filled, hnode', hfilled, rfl⟩ := List.forall₂_cons_left_iff.mp hall
      exact ⟨_, ⟨node', hnode', rfl⟩, (hrest node').mpr ⟨filled, hfilled, by simp⟩⟩

/-- Partners for all members of a list can be found just if there is one for each. -/
lemma exists_forall₂_iff {α β : Type} {R : α → β → Prop} {l : List α} :
    (∃ l', List.Forall₂ R l l') ↔ ∀ a ∈ l, ∃ b, R a b := by
  induction l with
  | nil => simp
  | cons a l ih =>
    rw [List.forall_mem_cons, ← ih]
    constructor
    · rintro ⟨_, h⟩
      obtain ⟨b, l', hb, hl', rfl⟩ := List.forall₂_cons_left_iff.mp h
      exact ⟨⟨b, hb⟩, l', hl'⟩
    · rintro ⟨⟨b, hb⟩, l', hl'⟩
      exact ⟨b :: l', List.Forall₂.cons hb hl'⟩

/-- A graph is made of the nodes of the first pass just if they can be filled and the output is a
node. -/
lemma graphOf_eq_ok_iff (hids : (d.nodes.map Node.id).Nodup) {nodes : List MaterialGraph.Node}
    (hmade : List.Forall₂ Made d.nodes nodes) {g : Graph} :
    d.graphOf nodes = .ok g ↔ ∃ filled i, List.Forall₂ d.Filled d.nodes filled ∧
      d.find? d.output = some i ∧ g = ⟨filled, some i⟩ := by
  have hbind : ∀ g, d.bindAll 0 d.nodes ⟨nodes, none⟩ = .ok g ↔
      ∃ filled, List.Forall₂ d.Filled d.nodes filled ∧ g = ⟨filled, none⟩ := by
    intro g
    have hlength : ([] ++ nodes).length = d.nodes.length := hmade.length_eq.symm
    exact bindAll_eq_ok_iff hids hmade hlength
  simp only [graphOf, bind_eq_ok_iff, hbind]
  cases houtput : d.find? d.output with
  | none => simp
  | some i =>
    obtain ⟨n, hn, _⟩ := (find?_eq_some_iff hids).mp houtput
    obtain ⟨hlt, _⟩ := List.getElem?_eq_some_iff.mp hn
    have hroot : ∀ filled, List.Forall₂ d.Filled d.nodes filled →
        (onGraph ((⟨filled, none⟩ : Graph).setRoot i) = .ok g ↔ g = ⟨filled, some i⟩) := by
      intro filled hfilled
      have hi : i < filled.length := hfilled.length_eq ▸ hlt
      simp [onGraph, Graph.setRoot, Graph.node, List.getElem?_eq_getElem hi, eq_comm]
    constructor
    · rintro ⟨_, ⟨filled, hfilled, rfl⟩, hok⟩
      exact ⟨filled, i, hfilled, rfl, (hroot filled hfilled).mp hok⟩
    · rintro ⟨filled, _, hfilled, ⟨⟩, hg⟩
      exact ⟨_, ⟨filled, hfilled, rfl⟩, (hroot filled hfilled).mpr hg⟩

/-- Loading puts together what the passes make: filled nodes with the place of the output. -/
lemma load_eq_ok_iff {m : Material} :
    d.load.result = .ok m ↔ (d.nodes.map Node.id).Nodup ∧ ∃ filled i,
      List.Forall₂ d.Filled d.nodes filled ∧ d.find? d.output = some i ∧
        m = ⟨d.metadata.name, ⟨filled, some i⟩, d.options.getD {}⟩ := by
  simp only [load, bind_eq_ok_iff, resolveAll_eq_ok_iff]
  constructor
  · rintro ⟨nodes, ⟨hids, _, hmade⟩, g, hg, hm⟩
    obtain ⟨filled, i, hfilled, houtput, rfl⟩ := (graphOf_eq_ok_iff hids hmade).mp hg
    exact ⟨hids, filled, i, hfilled, houtput, (Except.ok.inj hm).symm⟩
  · rintro ⟨hids, filled, i, hfilled, houtput, rfl⟩
    obtain ⟨nodes, hmade⟩ : ∃ nodes, List.Forall₂ Made d.nodes nodes := by
      refine exists_forall₂_iff.mpr fun n hn => ?_
      obtain ⟨node, made, hmade, _⟩ := exists_forall₂_iff.mp ⟨filled, hfilled⟩ n hn
      exact ⟨made, hmade⟩
    exact ⟨nodes, ⟨hids, by simp, hmade⟩, _,
      (graphOf_eq_ok_iff hids hmade).mpr ⟨filled, i, hfilled, houtput, rfl⟩, rfl⟩

/-- Loading succeeds just for documents that can be loaded: their nodes have types of the catalog
and different ids, every input fits a socket of its node, and the output is one of the nodes.  The
material is then the one that the document stands for. -/
theorem load_ok_iff_and_describes (d : Document) :
    ((∃ m, d.load.result = .ok m) ↔ d.Loadable) ∧
      ∀ m, d.load.result = .ok m → d.Describes m := by
  refine ⟨⟨?_, fun h => ?_⟩, fun m hm => ?_⟩
  · rintro ⟨m, hm⟩
    obtain ⟨hids, filled, i, hfilled, houtput, _⟩ := load_eq_ok_iff.mp hm
    have hnodes := exists_forall₂_iff.mp ⟨filled, hfilled⟩
    obtain ⟨n, hn, hid⟩ := (find?_eq_some_iff hids).mp houtput
    exact ⟨fun n hn => (exists_filled_iff.mp (hnodes n hn)).1, hids,
      fun n hn => (exists_filled_iff.mp (hnodes n hn)).2, n, List.mem_of_getElem? hn, hid⟩
  · obtain ⟨filled, hfilled⟩ : ∃ filled, List.Forall₂ d.Filled d.nodes filled :=
      exists_forall₂_iff.mpr fun n hn => exists_filled_iff.mpr ⟨h.types n hn, h.inputs n hn⟩
    obtain ⟨n, hn, hid⟩ := h.output
    obtain ⟨i, hi⟩ := List.getElem?_of_mem hn
    exact ⟨_, load_eq_ok_iff.mpr
      ⟨h.ids, filled, i, hfilled, (find?_eq_some_iff h.ids).mpr ⟨n, hi, hid⟩, rfl⟩⟩
  · obtain ⟨hids, filled, i, hfilled, houtput, rfl⟩ := load_eq_ok_iff.mp hm
    obtain ⟨n, hn, hid⟩ := (find?_eq_some_iff hids).mp houtput
    exact ⟨rfl, rfl, hfilled.imp fun _ _ h => h.represents, i, n, hn, hid, rfl⟩

/-- A document with a link to a later node, a text and an array for which the type is stated, a
number, and a mode that the kind of its node does not have. -/
def blend : Document where
  version := "1.0"
  metadata := { name := "blend" }
  nodes :=
    [⟨"blend", "Mix", some "Screen",
        [("Color1", .value (.string "tint") (some "color")),
          ("Color2", .value (.array ([.natural 1, .negative 3, .natural 0].map .number))
            (some "vec3f")),
          ("Fac", .link "sum")]⟩,
      ⟨"sum", "Math", some "Sqrt", [("Value1", .value (.number (.natural 2)) none)]⟩]
  output := "blend"
  options := none

/-- A document with one node, which holds the given value for a colour. -/
def holding (v : Json.Value) : Document where
  version := "1.0"
  metadata := {}
  nodes := [⟨"hue", "HSV", none, [("Color", .value v none)]⟩]
  output := "hue"
  options := none

/-- The first document can be loaded.  The node with the unknown mode adds, and the texts of the
number and of the array are the ones the shading language has for them.  A colour is neither a text
of white space nor a single number, and an array of one number is nothing at all. -/
theorem load_blend :
    blend.Loadable ∧ (∃ m, blend.load.result = .ok m ∧ blend.Describes m ∧
      m.graph.nodes =
        [(((MaterialGraph.Node.new "blend" (.mix .screen)).bind "Color1"
            (some (.literal ⟨.vec3, "tint"⟩))).bind "Color2"
            (some (.literal ⟨.vec3, "vec3(1.0, -3.0, 0.0)"⟩))).bind "Fac" (some (.connection 1)),
          (MaterialGraph.Node.new "sum" (.math .add)).bind "Value1"
            (some (.literal ⟨.float, "2.0"⟩))]) ∧
      ¬ (holding (.string "\t\u3000")).Loadable ∧
      ¬ (holding (.number (.natural 1))).Loadable ∧
      ¬ (holding (.array [.number (.natural 1)])).Loadable := by
  obtain ⟨hiff, hdescribes⟩ := load_ok_iff_and_describes blend
  have hloadable : blend.Loadable := by
    refine ⟨?_, by decide, ?_, _, List.mem_cons_self, rfl⟩
    · simp only [blend, List.forall_mem_cons]
      exact ⟨⟨.mix .mix, by decide, rfl⟩, ⟨.math .add, by decide, rfl⟩, by simp⟩
    · simp only [blend, List.forall_mem_cons]
      refine ⟨fun k hk => ?_, fun k hk => ?_, by simp⟩
      · rw [Kind.sockets_eq_of_typeName (hk.trans (rfl : _ = (Kind.mix .mix).typeName))]
        refine ⟨⟨.color "Color1" "0.5", by decide, rfl, _,
            Binds.value ?_ (Denotes.text ⟨'t', by decide, by decide⟩)⟩,
          ⟨.color "Color2" "0.5", by decide, rfl, _, Binds.value ?_ (Denotes.vector (by decide))⟩,
          ⟨.number "Fac" "0.5", by decide, rfl, _, Binds.link (i := 1) rfl rfl⟩, by simp⟩
        · rintro _ ⟨⟩
          decide
        · rintro _ ⟨⟩
          decide
      · rw [Kind.sockets_eq_of_typeName (hk.trans (rfl : _ = (Kind.math .add).typeName))]
        exact ⟨⟨.number "Value1" "0.5", by decide, rfl, _,
          Binds.value (by rintro _ ⟨⟩) Denotes.number⟩, by simp⟩
  obtain ⟨m, hm⟩ := hiff.mpr hloadable
  have hrefused : ∀ v e, (holding v).load.result = .error e → ¬ (holding v).Loadable := by
    intro v e he hv
    obtain ⟨m, hm⟩ := (load_ok_iff_and_describes (holding v)).1.mpr hv
    rw [he] at hm
    cases hm
  refine ⟨hloadable, ⟨m, hm, hdescribes m hm, ?_⟩, hrefused _ _ rfl, hrefused _ _ rfl,
    hrefused _ _ rfl⟩
  have hnumber : Written.number (.natural 2) = "2.0" := by decide +kernel
  have hvector : (Literal.vector .vec3 ([.natural 1, .negative 3, .natural 0].map
      Written.number)).text = "vec3(1.0, -3.0, 0.0)" := by decide +kernel
  rw [← hnumber, ← hvector]
  exact congrArg (fun m => m.graph.nodes) (Except.ok.inj hm).symm

end MaterialGraph.Document
