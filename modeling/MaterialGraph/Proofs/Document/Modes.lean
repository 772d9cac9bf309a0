import Mathlib
import MaterialGraph.Proofs.Document.Loading

/-!
# Modes that are not known

A node may ask for a mode that its type does not have.  Loading goes on in the standard mode then,
and it is as if the node had not asked (`Node.accepted`), but for a warning.  Nothing else that is
wrong with a document is passed over: the errors that work may go on after come from modes only, so
none of them is ever the error of a load (`recoverable_of_load`).

The passes read a node through its id, its kind and its inputs.  `Node.resolve_accepted` and
`Node.warning_of_resolve` say what the mode does to the kind and to the warnings; the second pass
does not see the mode at all (`graphOf_accepted`).
-/

namespace MaterialGraph

/-- The names of the modes of a family. -/
def Mode.names (α : Type) [Mode α] : List String :=
  (Mode.all : List α).map Mode.name

/-- The names of the modes that a kind can take. -/
def Kind.modeNames : Kind → List String
  | gamma _ => Mode.names GammaMode
  | lightFalloff _ => Mode.names FalloffMode
  | mix _ => Mode.names MixMode
  | clamp _ => Mode.names ClampMode
  | math _ => Mode.names MathMode
  | separateColor _ => Mode.names Channel
  | vectorMath _ => Mode.names VectorMode
  | _ => []

/-- A kind takes just the modes that it has a name for. -/
lemma Kind.exists_withMode_iff {k : Kind} {name : String} :
    (∃ k', k.withMode name = .ok k') ↔ name ∈ k.modeNames := by
  -- all families go through `readMode` in the same way
  have hread : ∀ {α : Type} [Mode α] (make : α → Kind),
      (∃ k', (readMode α k.typeName name).map make = .ok k') ↔ name ∈ Mode.names α := by
    intro α _ make
    have hfound : (Mode.ofName? α name).isSome ↔ name ∈ Mode.names α := by
      simp [Mode.ofName?, Mode.names]
    rw [← hfound]
    unfold readMode
    cases Mode.ofName? α name with
    | none => simp [Except.map]
    | some m => simp [Except.map]
  cases k with
  | gamma _ => exact hread gamma
  | lightFalloff _ => exact hread lightFalloff
  | mix _ => exact hread mix
  | clamp _ => exact hread clamp
  | math _ => exact hread math
  | separateColor _ => exact hread separateColor
  | vectorMath _ => exact hread vectorMath
  | _ => simp [withMode, modeNames]

/-! ### Errors that work may go on after -/

/-- No operation on a node fails with such an error. -/
lemma Node.Edit.recoverable_of_apply {edit : Node.Edit} {n : Node} {e : GraphError}
    (h : edit.apply n = .error e) : e.recoverable = false := by
  cases edit with
  | setValue socket value =>
    have h : n.setValue socket value = .error e := h
    unfold Node.setValue at h
    split at h
    · rw [← Except.error.inj h]
      rfl
    · split at h
      · cases h
      · rw [← Except.error.inj h]
        rfl
  | connect socket producer =>
    have h : n.connect socket producer = .error e := h
    unfold Node.connect at h
    split at h
    · rw [← Except.error.inj h]
      rfl
    · cases h
  | disconnect socket =>
    have h : n.disconnect socket = .error e := h
    unfold Node.disconnect at h
    split at h
    · rw [← Except.error.inj h]
      rfl
    · cases h

namespace Graph

variable {g : Graph} {e : GraphError}

/-- A node that is looked for in vain is unknown, which is no such error. -/
lemma recoverable_of_node {id : NodeId} (h : g.node id = .error e) : e.recoverable = false := by
  unfold node at h
  split at h
  · cases h
  · rw [← Except.error.inj h]
    rfl

/-- Changing a node fails with such an error only if the change does. -/
lemma recoverable_of_update {id : NodeId} {change : Node → Except GraphError Node}
    (hchange : ∀ n e, change n = .error e → e.recoverable = false)
    (h : g.update id change = .error e) : e.recoverable = false := by
  unfold update at h
  cases hn : g.node id with
  | error e' =>
    obtain rfl : e' = e := by simpa [hn] using h
    exact recoverable_of_node hn
  | ok n =>
    cases hn' : change n with
    | error e' =>
      obtain rfl : e' = e := by simpa [hn, hn'] using h
      exact hchange n e' hn'
    | ok n' => simp [hn, hn'] at h

/-- No operation on a graph fails with such an error. -/
lemma Edit.recoverable_of_apply {edit : Edit} (h : edit.apply g = .error e) :
    e.recoverable = false := by
  have hnode : ∀ (edit : Node.Edit) n e, edit.apply n = .error e → e.recoverable = false :=
    fun _ _ _ h => Node.Edit.recoverable_of_apply h
  cases edit with
  | add name kind edits => cases h
  | replace id name kind edits =>
    have h : g.update id (fun _ => .ok ((Node.new name kind).edited edits)) = .error e := h
    exact recoverable_of_update (by simp) h
  | setValue id socket value => exact recoverable_of_update (hnode (.setValue socket value)) h
  | connect consumer socket producer =>
    unfold apply Graph.connect at h
    cases hproducer : g.node producer with
    | error e' =>
      obtain rfl : e' = e := by simpa [hproducer] using h
      exact recoverable_of_node hproducer
    | ok n =>
      simp only [hproducer] at h
      exact recoverable_of_update (hnode (.connect socket producer)) h
  | attach consumer socket producer =>
    exact recoverable_of_update (hnode (.connect socket producer)) h
  | disconnect id socket => exact recoverable_of_update (hnode (.disconnect socket)) h
  | setRoot id =>
    unfold apply Graph.setRoot at h
    cases hn : g.node id with
    | error e' =>
      obtain rfl : e' = e := by simpa [hn] using h
      exact recoverable_of_node hn
    | ok n => simp [hn] at h

end Graph

namespace Document

/-- An outcome of a part of loading is no error that work may go on after. -/
def Final {α : Type} (x : Except LoadError α) : Prop :=
  ∀ e, x = .error (.graph e) → e.recoverable = false

/-- Parts one after the other are final if each of them is. -/
lemma Final.bind {α β : Type} {x : Except LoadError α} {f : α → Except LoadError β}
    (hx : Final x) (hf : ∀ a, Final (f a)) : Final (x >>= f) := by
  cases x with
  | error e =>
    intro e' h
    have h : (.error e : Except LoadError β) = .error (.graph e') := h
    exact hx e' (by rw [Except.error.inj h])
  | ok a => exact hf a

/-- Success is final. -/
lemma final_ok {α : Type} (a : α) : Final (.ok a : Except LoadError α) :=
  fun _ h => nomatch h

/-- Operations on the graph are final. -/
lemma final_onGraph {α : Type} {x : Except GraphError α}
    (hx : ∀ e, x = .error e → e.recoverable = false) : Final (onGraph x) := by
  intro e h
  cases x with
  | ok a => cases h
  | error e' =>
    obtain rfl : e' = e := LoadError.graph.inj (Except.error.inj h)
    exact hx e' rfl

namespace Node

variable {n : Node}

/-- The mode that a node of a known type asks for, if its type has no mode of that name. -/
def refused? (n : Node) : Option String :=
  match Kind.ofTypeName? n.type, n.mode with
  | some kind, some mode => if mode ∈ kind.modeNames then none else some mode
  | _, _ => none

/-- The node without the mode, if that is refused. -/
def accepted (n : Node) : Node :=
  if n.refused?.isSome then { n with mode := none } else n

/-- Only the mode is taken away. -/
@[simp] lemma id_accepted (n : Node) : n.accepted.id = n.id := by
  unfold accepted
  split <;> rfl

/-- Only the mode is taken away. -/
@[simp] lemma inputs_accepted (n : Node) : n.accepted.inputs = n.inputs := by
  unfold accepted
  split <;> rfl

/-- Without a mode that is refused a node is resolved without a warning, unless its type is not
known. -/
lemma resolve_of_refused?_eq_none (h : n.refused? = none) :
    n.resolve = .error (.unsupportedType n.type) ∨ ∃ kind, n.resolve = .ok (kind, none) := by
  unfold refused? at h
  unfold resolve
  cases hkind : Kind.ofTypeName? n.type with
  | none => exact Or.inl rfl
  | some kind =>
    cases hmode : n.mode with
    | none => exact Or.inr ⟨kind, rfl⟩
    | some mode =>
      have hmem : mode ∈ kind.modeNames := by simpa [hkind, hmode] using h
      obtain ⟨k, hk⟩ := Kind.exists_withMode_iff.mpr hmem
      exact Or.inr ⟨k, by simp only [hk]⟩

/-- A mode that is refused leaves the kind of the catalog, with a warning, and without the mode it
is the same kind. -/
lemma resolve_of_refused? {mode : String} (h : n.refused? = some mode) :
    n.mode = some mode ∧ ∃ kind ∈ Kind.catalog,
      n.resolve = .ok (kind, some ⟨n.id, kind, mode⟩) ∧
      ({ n with mode := none } : Node).resolve = .ok (kind, none) := by
  unfold refused? at h
  cases hkind : Kind.ofTypeName? n.type with
  | none => simp [hkind] at h
  | some kind =>
    cases hmode : n.mode with
    | none => simp [hkind, hmode] at h
    | some asked =>
      have hrefused : asked ∉ kind.modeNames ∧ asked = mode := by simpa [hkind, hmode] using h
      obtain ⟨hmem, rfl⟩ := hrefused
      have hwith : kind.withMode asked = .error (.unknownMode kind.typeName asked) := by
        cases hresult : kind.withMode asked with
        | ok k => exact absurd (Kind.exists_withMode_iff.mp ⟨k, hresult⟩) hmem
        | error e => rw [Kind.eq_unknownMode_of_withMode hresult]
      refine ⟨rfl, kind, (Kind.ofTypeName?_eq_some_iff.mp hkind).1, ?_, ?_⟩
      · simp [resolve, hkind, hmode, hwith, GraphError.recoverable]
      · simp [resolve, hkind]

/-- Without the mode that is refused a node has the same kind, and there is no warning. -/
lemma resolve_accepted (n : Node) :
    n.accepted.resolve = n.resolve.map fun r => (r.1, none) := by
  unfold accepted
  cases hrefused : n.refused? with
  | none =>
    rcases resolve_of_refused?_eq_none hrefused with hresolve | ⟨kind, hresolve⟩
    · simp [hresolve, Except.map]
    · simp [hresolve, Except.map]
  | some mode =>
    obtain ⟨-, kind, -, hresolve, haccepted⟩ := resolve_of_refused? hrefused
    rw [hresolve]
    exact haccepted

/-- There is a warning just for a mode that is refused. -/
lemma warning_of_resolve {kind : Kind} {warning : Option Warning}
    (h : n.resolve = .ok (kind, warning)) :
    warning = n.refused?.map fun mode => ⟨n.id, kind, mode⟩ := by
  cases hrefused : n.refused? with
  | none =>
    rcases resolve_of_refused?_eq_none hrefused with hresolve | ⟨standard, hresolve⟩
    · rw [hresolve] at h
      cases h
    · rw [hresolve] at h
      exact (Prod.mk.inj (Except.ok.inj h)).2.symm
  | some mode =>
    obtain ⟨-, standard, -, hresolve, -⟩ := resolve_of_refused? hrefused
    rw [hresolve] at h
    obtain ⟨rfl, rfl⟩ := Prod.mk.inj (Except.ok.inj h)
    rfl

/-- Resolving a node fails only if its type is not known. -/
lemma eq_unsupportedType_of_resolve {e : LoadError} (h : n.resolve = .error e) :
    e = .unsupportedType n.type := by
  cases hrefused : n.refused? with
  | none =>
    rcases resolve_of_refused?_eq_none hrefused with hresolve | ⟨kind, hresolve⟩
    · rw [hresolve] at h
      exact (Except.error.inj h).symm
    · rw [hresolve] at h
      cases h
  | some mode =>
    obtain ⟨-, kind, -, hresolve, -⟩ := resolve_of_refused? hrefused
    rw [hresolve] at h
    cases h

end Node

variable {d : Document}

/-- The document without the modes that are refused. -/
def accepted (d : Document) : Document :=
  { d with nodes := d.nodes.map Node.accepted }

/-- A warning about a node names its id, the mode that it asked for, and the mode of its kind, which
is the standard one, or says that its kind has no modes. -/
structure Warning.Reports (w : Warning) (n : Node) (kind : Kind) : Prop where
  node : w.node = n.id
  mode : n.mode = some w.mode
  standard : kind ∈ Kind.catalog
  message : w.message = "unknown " ++ n.type ++ " mode '" ++ w.mode ++ "'; using "
    ++ kind.modeName?.getD (n.type ++ " without a mode")

/-! ### The first pass -/

/-- Without the modes that are refused the first pass makes the same nodes or fails in the same way,
and does not warn. -/
lemma resolveAll_accepted (seen : List String) (ns : List Node) :
    resolveAll seen (ns.map Node.accepted) = ([], (resolveAll seen ns).2) := by
  induction ns generalizing seen with
  | nil => rfl
  | cons n ns ih =>
    rw [List.map_cons, resolveAll, resolveAll, Node.resolve_accepted, Node.id_accepted]
    cases n.resolve with
    | error e => rfl
    | ok resolved =>
      simp only [Except.map]
      split
      · rfl
      · rw [ih]
        rfl

/-- The wording of a warning. -/
lemma Warning.message_eq (w : Warning) :
    w.message = "unknown " ++ w.kind.typeName ++ " mode '" ++ w.mode ++ "'; using "
      ++ w.kind.modeName?.getD (w.kind.typeName ++ " without a mode") := by
  have hjoin : "'; using " = "'" ++ "; using " := rfl
  unfold Warning.message GraphError.message
  rw [hjoin]
  simp only [String.append_assoc]

/-- A node whose mode is refused is reported. -/
lemma reports_of_resolve {n : Node} {mode : String} {kind : Kind} {warning : Option Warning}
    (hrefused : n.refused? = some mode) (h : n.resolve = .ok (kind, warning)) :
    ∃ w, warning = some w ∧ w.Reports n kind := by
  obtain ⟨hmode, standard, hstandard, hresolve, -⟩ := Node.resolve_of_refused? hrefused
  rw [hresolve] at h
  obtain ⟨rfl, rfl⟩ := Prod.mk.inj (Except.ok.inj h)
  have htype : standard.typeName = n.type := (Node.hasKind_of_resolve hresolve).typeName
  refine ⟨⟨n.id, standard, mode⟩, rfl, rfl, hmode, hstandard, ?_⟩
  rw [Warning.message_eq, htype]

/-- When the first pass completes, it has reported the nodes whose modes are refused, in order. -/
lemma forall₂_reports {seen : List String} {ns : List Node} {nodes : List MaterialGraph.Node}
    (h : (resolveAll seen ns).2 = .ok nodes) :
    List.Forall₂ (fun p w => Warning.Reports w p.1 p.2)
      ((ns.zip (nodes.map (·.kind))).filter fun p => p.1.refused?.isSome)
      (resolveAll seen ns).1 := by
  induction ns generalizing seen nodes with
  | nil => exact List.Forall₂.nil
  | cons n ns ih =>
    unfold resolveAll at h ⊢
    cases hresolve : n.resolve with
    | error e => simp [hresolve] at h
    | ok resolved =>
      obtain ⟨kind, warning⟩ := resolved
      by_cases hseen : n.id ∈ seen
      · simp [hresolve, hseen] at h
      · simp only [hresolve, List.contains_iff_mem, hseen, if_false, map_eq_ok_iff] at h ⊢
        obtain ⟨rest, hrest, rfl⟩ := h
        have htail := ih hrest
        rw [List.map_cons, List.zip_cons_cons, List.filter_cons]
        cases hrefused : n.refused? with
        | none =>
          have hwarning := Node.warning_of_resolve hresolve
          rw [hrefused, Option.map_none] at hwarning
          rw [hwarning]
          exact htail
        | some mode =>
          obtain ⟨w, rfl, hw⟩ := reports_of_resolve hrefused hresolve
          exact List.Forall₂.cons hw htail

/-- The first pass fails for unknown types and repeated ids, but not for modes. -/
lemma final_resolveAll (seen : List String) (ns : List Node) : Final (resolveAll seen ns).2 := by
  induction ns generalizing seen with
  | nil => exact final_ok _
  | cons n ns ih =>
    intro e h
    unfold resolveAll at h
    cases hresolve : n.resolve with
    | error e' =>
      rw [hresolve, Node.eq_unsupportedType_of_resolve hresolve] at h
      cases h
    | ok resolved =>
      by_cases hseen : n.id ∈ seen
      · simp [hresolve, hseen] at h
      · simp only [hresolve, List.contains_iff_mem, hseen, if_false] at h
        cases hrest : (resolveAll (n.id :: seen) ns).2 with
        | ok nodes => simp [hrest, Except.map] at h
        | error e' =>
          obtain rfl : e' = .graph e := by simpa [hrest, Except.map] using h
          exact ih (n.id :: seen) e hrest

/-! ### The second pass -/

/-- Binding an input is final. -/
lemma final_bindInput (d : Document) (node : String) (consumer : NodeId) (g : Graph)
    (socket : String) (input : Input) : Final (d.bindInput node consumer g socket input) := by
  have hedit : ∀ edit : Graph.Edit, ∀ e, edit.apply g = .error e → e.recoverable = false :=
    fun _ _ h => Graph.Edit.recoverable_of_apply h
  cases input with
  | link id =>
    simp only [bindInput]
    cases d.find? id with
    | none =>
      intro e h
      cases h
    | some producer => exact final_onGraph (hedit (.connect consumer socket producer))
  | value value type =>
    refine Final.bind (final_onGraph fun _ h => Graph.recoverable_of_node h) fun n => ?_
    cases n.socket? socket with
    | none =>
      intro e h
      cases h
    | some s =>
      refine Final.bind (fun e h => ?_) fun annotated => Final.bind (fun e h => ?_) fun l =>
        final_onGraph (hedit (.setValue consumer socket l))
      · unfold annotatedType at h
        split at h
        · cases h
        · split at h
          · cases h
          · simp at h
      · unfold literal at h
        split at h
        · simp at h
        · cases h
        · split at h
          · cases h
          · split at h
            · cases h
            · simp at h

/-- Binding the inputs of a node is final. -/
lemma final_bindInputs (d : Document) (node : String) (consumer : NodeId)
    (inputs : List (String × Input)) (g : Graph) :
    Final (d.bindInputs node consumer inputs g) := by
  induction inputs generalizing g with
  | nil => exact final_ok g
  | cons entry inputs ih =>
    exact Final.bind (final_bindInput d node consumer g entry.1 entry.2) ih

/-- Binding the inputs of all nodes is final. -/
lemma final_bindAll (d : Document) (first : NodeId) (ns : List Node) (g : Graph) :
    Final (d.bindAll first ns g) := by
  induction ns generalizing first g with
  | nil => exact final_ok g
  | cons n ns ih =>
    exact Final.bind (final_bindInputs d n.id first n.inputs g) fun g' => ih (first + 1) g'

/-- The error of a load, if it is one of the graph, is none that work may go on after. -/
theorem recoverable_of_load {e : GraphError} (h : d.load.result = .error (.graph e)) :
    e.recoverable = false := by
  refine Final.bind (final_resolveAll [] d.nodes) (fun nodes => ?_) e h
  refine Final.bind (Final.bind (final_bindAll d 0 d.nodes _) fun g => ?_) fun _ => final_ok _
  cases d.find? d.output with
  | none => exact fun _ h => nomatch h
  | some root =>
    have hroot : ∀ e, (Graph.Edit.setRoot root).apply g = .error e → e.recoverable = false :=
      fun _ h => Graph.Edit.recoverable_of_apply h
    exact final_onGraph hroot

/-- The places of ids do not depend on modes. -/
lemma find?_accepted (d : Document) (id : String) : d.accepted.find? id = d.find? id := by
  simp [find?, accepted, List.findIdx?_map, Function.comp_def]

/-- Binding an input does not depend on modes. -/
lemma bindInput_accepted (d : Document) (node : String) (consumer : NodeId) (g : Graph)
    (socket : String) (input : Input) :
    d.accepted.bindInput node consumer g socket input =
      d.bindInput node consumer g socket input := by
  cases input with
  | link id => simp only [bindInput, find?_accepted]
  | value value type => rfl

/-- Binding the inputs of a node does not depend on modes. -/
lemma bindInputs_accepted (d : Document) (node : String) (consumer : NodeId)
    (inputs : List (String × Input)) (g : Graph) :
    d.accepted.bindInputs node consumer inputs g = d.bindInputs node consumer inputs g := by
  induction inputs generalizing g with
  | nil => rfl
  | cons entry inputs ih => simp only [bindInputs, bindInput_accepted, ih]

/-- Binding the inputs of all nodes does not depend on modes. -/
lemma bindAll_accepted (d : Document) (first : NodeId) (ns : List Node) (g : Graph) :
    d.accepted.bindAll first (ns.map Node.accepted) g = d.bindAll first ns g := by
  induction ns generalizing first g with
  | nil => rfl
  | cons n ns ih =>
    simp only [List.map_cons, bindAll, bindInputs_accepted, Node.id_accepted,
      Node.inputs_accepted, ih]

/-- The second pass does not see the modes. -/
lemma graphOf_accepted (d : Document) (nodes : List MaterialGraph.Node) :
    d.accepted.graphOf nodes = d.graphOf nodes := by
  have hnodes : d.accepted.nodes = d.nodes.map Node.accepted := rfl
  have houtput : d.accepted.output = d.output := rfl
  simp only [graphOf, hnodes, houtput, bindAll_accepted, find?_accepted]

/-- The nodes of a loaded graph have the kinds that the first pass gave them. -/
lemma map_kind_of_load {m : Material} {nodes : List MaterialGraph.Node}
    (h : d.load.result = .ok m) (hnodes : (resolveAll [] d.nodes).2 = .ok nodes) :
    m.graph.nodes.map (·.kind) = nodes.map (·.kind) := by
  obtain ⟨-, filled, i, hfilled, -, rfl⟩ := load_eq_ok_iff.mp h
  obtain ⟨-, -, hmade⟩ := resolveAll_eq_ok_iff.mp hnodes
  have hkinds : ∀ {ns : List Node} {as bs : List MaterialGraph.Node},
      List.Forall₂ d.Filled ns as → List.Forall₂ Made ns bs →
        as.map (·.kind) = bs.map (·.kind) := by
    intro ns as bs has hbs
    induction has generalizing bs with
    | nil => rw [List.forall₂_nil_left_iff.mp hbs]
    | @cons n a ns as ha _ ih =>
      obtain ⟨b, rest, ⟨k, hk, rfl⟩, hrest, rfl⟩ := List.forall₂_cons_left_iff.mp hbs
      rw [List.map_cons, List.map_cons, ih hrest, ha.represents.kind.unique hk]
      rfl
  exact hkinds hfilled hmade

/-- Modes that are not known do nothing but warn.  Without them a document is loaded with the same
result, whether it is a material or an error, and without a warning; no error of a load is about a
mode.  When the first pass completes, there is one warning for each of these modes, in the order of
the nodes, which names the mode that is used instead; it is the mode of the node in the graph. -/
theorem load_refused_modes (d : Document) :
    d.load.result = d.accepted.load.result ∧
      (∀ family mode, d.load.result ≠ .error (.graph (.unknownMode family mode))) ∧
      d.accepted.load.warnings = [] ∧
      ∀ nodes, (resolveAll [] d.nodes).2 = .ok nodes →
        List.Forall₂ (fun p w => Warning.Reports w p.1 p.2)
          ((d.nodes.zip (nodes.map (·.kind))).filter fun p => p.1.refused?.isSome)
          d.load.warnings ∧
        ∀ m, d.load.result = .ok m → m.graph.nodes.map (·.kind) = nodes.map (·.kind) := by
  have hpass : resolveAll [] d.accepted.nodes = ([], (resolveAll [] d.nodes).2) :=
    resolveAll_accepted [] d.nodes
  refine ⟨?_, ?_, ?_, fun nodes hnodes => ⟨forall₂_reports hnodes, ?_⟩⟩
  · simp only [load, hpass, graphOf_accepted]
    rfl
  · intro family mode h
    exact absurd (recoverable_of_load h) (by simp [GraphError.recoverable])
  · simp only [load, hpass]
  · exact fun m hm => map_kind_of_load hm hnodes

/-- A document with three modes: one that is known, one that is not, and one for a type without
modes. -/
def styled : Document where
  version := "1.0"
  metadata := { name := "styled" }
  nodes :=
    [⟨"blend", "Mix", some "Screen", [("Color1", .link "tint")]⟩,
      ⟨"sum", "Math", some "Sqrt", []⟩, ⟨"tint", "HSV", some "Fast", []⟩]
  output := "blend"
  options := none

/-- Two of the modes are reported, and their nodes are in the standard mode and in none. -/
theorem load_refused_modes_styled :
    ∃ m, styled.load.result = .ok m ∧ styled.accepted.load.result = .ok m ∧
      m.graph.nodes.map (·.kind) = [.mix .screen, .math .add, .hsv] ∧
      styled.load.warnings.map Warning.message =
        ["unknown Math mode 'Sqrt'; using Add",
          "unknown HSV mode 'Fast'; using HSV without a mode"] ∧
      List.Forall₂ (fun p w => Warning.Reports w p.1 p.2)
        [(⟨"sum", "Math", some "Sqrt", []⟩, .math .add), (⟨"tint", "HSV", some "Fast", []⟩, .hsv)]
        styled.load.warnings := by
  let m : Material := ⟨"styled", ⟨[(MaterialGraph.Node.new "blend" (.mix .screen)).bind "Color1"
    (some (.connection 2)), .new "sum" (.math .add), .new "tint" .hsv], some 0⟩, {}⟩
  have hload : styled.load.result = .ok m := rfl
  have hfirst : (resolveAll [] styled.nodes).2 = .ok
      [.new "blend" (.mix .screen), .new "sum" (.math .add), .new "tint" .hsv] := rfl
  obtain ⟨hsame, -, -, hreports⟩ := load_refused_modes styled
  obtain ⟨hwarnings, hkinds⟩ := hreports _ hfirst
  exact ⟨m, hload, hsame ▸ hload, hkinds m hload, rfl, hwarnings⟩

end Document

end MaterialGraph
