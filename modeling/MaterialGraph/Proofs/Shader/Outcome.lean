import MaterialGraph.Proofs.Graph.Authoring
import MaterialGraph.Proofs.Order.Evaluate
import MaterialGraph.Proofs.Shader.Emission

/-!
# Outcome of compiling

Two things can be wrong with a socket when its node is generated: nothing is bound to it, or a
producer whose output has another type (`Graph.Fault`).  For a graph that can be built nothing else
goes wrong, because the producers of a node have their variables by the time it is generated, and
the sockets are as the kind declares them.

Main statement: `compile_outcome` gives the result of compiling and the number of variables handed
out, for every history of edits.  Without faults all nodes of the order are generated; otherwise
the first fault of the first node that has one is reported, after the nodes before it.
-/

namespace MaterialGraph

namespace Graph

/-- What is wrong with a socket of a node, as it is reported. -/
inductive Fault (g : Graph) (n : Node) (s : Socket) : GraphError → Prop where
  | unbound (hbinding : s.binding = none) : Fault g n s (.unbound n.name s.name)
  | mismatch {p : NodeId} {producer : Node} (hbinding : s.binding = some (.connection p))
      (hp : g.nodes[p]? = some producer) (htype : producer.output ≠ s.type) :
      Fault g n s (.typeMismatch n.name s.name s.type producer.output)

/-- Something is wrong with a socket. -/
def Faulty (g : Graph) (n : Node) (s : Socket) : Prop :=
  ∃ e, g.Fault n s e

/-- Nothing is wrong with the sockets of a node. -/
def Clean (g : Graph) (id : NodeId) : Prop :=
  ∀ n, g.nodes[id]? = some n → ∀ s ∈ n.sockets, ¬ g.Faulty n s

/-- What is wrong with the first faulty socket of a node. -/
def NodeFault (g : Graph) (n : Node) (e : GraphError) : Prop :=
  ∃ before s after, n.sockets = before ++ s :: after ∧ (∀ t ∈ before, ¬ g.Faulty n t) ∧
    g.Fault n s e

/-- What is wrong with the first faulty socket of the first node that has one, and the number of
nodes before that one. -/
def FirstFault (g : Graph) (order : List NodeId) (k : Nat) (e : GraphError) : Prop :=
  ∃ before id after n, order = before ++ id :: after ∧ before.length = k ∧
    (∀ b ∈ before, g.Clean b) ∧ g.nodes[id]? = some n ∧ g.NodeFault n e

/-- What the generator relies on at a socket: a literal has the type of the socket, and a producer
is a node that has its variable. -/
structure Ready (g : Graph) (table : SymbolTable) (s : Socket) : Prop where
  literal : ∀ value, s.binding = some (.literal value) → value.type = s.type
  producer : ∀ p, s.binding = some (.connection p) →
    ∃ n symbol, g.nodes[p]? = some n ∧ table.lookupNode p = some symbol

variable {g : Graph} {table : SymbolTable} {n : Node}

/-- A socket is faulty if nothing is bound to it, or a producer of another type. -/
lemma faulty_iff {s : Socket} :
    g.Faulty n s ↔ s.binding = none ∨ ∃ p producer, s.binding = some (.connection p) ∧
      g.nodes[p]? = some producer ∧ producer.output ≠ s.type := by
  constructor
  · rintro ⟨e, hbinding | ⟨hbinding, hp, htype⟩⟩
    · exact Or.inl hbinding
    · exact Or.inr ⟨_, _, hbinding, hp, htype⟩
  · rintro (hbinding | ⟨p, producer, hbinding, hp, htype⟩)
    · exact ⟨_, Fault.unbound hbinding⟩
    · exact ⟨_, Fault.mismatch hbinding hp htype⟩

/-! ### Generating a node -/

/-- The generator finds the argument of a socket or says what is wrong with it. -/
lemma argument_of_ready {s : Socket} (h : g.Ready table s) :
    (∃ a, g.argument table n s = .ok a ∧ ¬ g.Faulty n s) ∨
      ∃ e, g.argument table n s = .error e ∧ g.Fault n s e := by
  unfold argument
  cases hbinding : s.binding with
  | none => exact Or.inr ⟨_, rfl, Fault.unbound hbinding⟩
  | some binding =>
    cases binding with
    | literal value =>
      refine Or.inl ⟨.literal value.text, by simp [h.literal value hbinding], ?_⟩
      simp [faulty_iff, hbinding]
    | connection p =>
      obtain ⟨producer, symbol, hp, hsymbol⟩ := h.producer p hbinding
      by_cases htype : producer.output = s.type
      · refine Or.inl ⟨.symbol symbol.name, by simp [node_eq_ok_iff.mpr hp, htype, hsymbol], ?_⟩
        simp [faulty_iff, hbinding, hp, htype]
      · refine Or.inr ⟨.typeMismatch n.name s.name s.type producer.output, ?_, ?_⟩
        · simp [node_eq_ok_iff.mpr hp, htype]
        · exact Fault.mismatch hbinding hp htype

/-- The generator finds the arguments of sockets or says what is wrong with the first faulty one. -/
lemma arguments_of_ready {sockets : List Socket} (h : ∀ s ∈ sockets, g.Ready table s) :
    (∃ arguments, g.arguments table n sockets = .ok arguments ∧
        ∀ s ∈ sockets, ¬ g.Faulty n s) ∨
      ∃ e before s after, g.arguments table n sockets = .error e ∧
        sockets = before ++ s :: after ∧ (∀ t ∈ before, ¬ g.Faulty n t) ∧ g.Fault n s e := by
  induction sockets with
  | nil => exact Or.inl ⟨[], rfl, by simp⟩
  | cons s sockets ih =>
    unfold Graph.arguments
    rcases argument_of_ready (h s List.mem_cons_self) with ⟨a, ha, hclean⟩ | ⟨e, he, hfault⟩
    · rcases ih fun t ht => h t (List.mem_cons_of_mem _ ht) with
        ⟨arguments, harguments, hrest⟩ | ⟨e, before, t, after, he, hsplit, hbefore, hfault⟩
      · refine Or.inl ⟨a :: arguments, by rw [ha, harguments], ?_⟩
        exact List.forall_mem_cons.mpr ⟨hclean, hrest⟩
      · refine Or.inr ⟨e, s :: before, t, after, by rw [ha, he], by rw [hsplit]; rfl, ?_, hfault⟩
        exact List.forall_mem_cons.mpr ⟨hclean, hbefore⟩
    · exact Or.inr ⟨e, [], s, sockets, by rw [he], rfl, by simp, hfault⟩

/-- The generator makes the assignment of a node or says what is wrong with its first faulty
socket.  The number of arguments is always right. -/
lemma assign_of_ready {id : NodeId} (hn : g.nodes[id]? = some n) (hconforms : n.Conforms)
    (h : ∀ s ∈ n.sockets, g.Ready table s) :
    (∃ a, g.assign table id = .ok (a, (table.allocate id n.output).2) ∧ g.Clean id) ∨
      ∃ e, g.assign table id = .error e ∧ g.NodeFault n e := by
  unfold assign
  rw [node_eq_ok_iff.mpr hn]
  rcases arguments_of_ready (n := n) h with
    ⟨arguments, harguments, hclean⟩ | ⟨e, before, s, after, he, hsplit, hbefore, hfault⟩
  · have hlength : (arguments.map Argument.text).length = n.kind.sockets.length := by
      rw [List.length_map, ← (arguments_eq_ok_iff.mp harguments).length_eq, hconforms.length_eq]
    obtain ⟨code, hcode⟩ : ∃ code, n.kind.generate (arguments.map Argument.text) = .ok code :=
      ⟨_, if_pos hlength⟩
    refine Or.inl ⟨⟨(table.allocate id n.output).1, n.name, n.kind, arguments, code⟩,
      by simp only [harguments, hcode], ?_⟩
    intro m hm
    rw [hn] at hm
    cases hm
    exact hclean
  · exact Or.inr ⟨e, by simp only [he], before, s, after, hsplit, hbefore, hfault⟩

/-! ### Generating the nodes of an order -/

/-- A socket of a node can be generated once the variables of the producers are there. -/
lemma ready_of_producers (hconforms : n.Conforms)
    (hproducers : ∀ p ∈ n.producers,
      ∃ m symbol, g.nodes[p]? = some m ∧ table.lookupNode p = some symbol) :
    ∀ s ∈ n.sockets, g.Ready table s := by
  intro s hs
  refine ⟨fun value hvalue => ?_, fun p hp => hproducers p ?_⟩
  · exact hconforms.literal_type hs value hvalue
  · exact Node.mem_producers_iff.mpr ⟨s, hs, hp⟩

/-- A clean node in front moves the first fault by one. -/
lemma FirstFault.cons {id : NodeId} {order : List NodeId} {k : Nat} {e : GraphError}
    (h : g.FirstFault order k e) (hclean : g.Clean id) : g.FirstFault (id :: order) (k + 1) e := by
  obtain ⟨before, faulty, after, n, rfl, rfl, hbefore, hn, hfault⟩ := h
  exact ⟨id :: before, faulty, after, n, rfl, rfl, List.forall_mem_cons.mpr ⟨hclean, hbefore⟩, hn,
    hfault⟩

/-- Where there is a first fault, not all nodes are clean. -/
lemma FirstFault.not_clean {order : List NodeId} {k : Nat} {e : GraphError}
    (h : g.FirstFault order k e) : ¬ ∀ id ∈ order, g.Clean id := by
  obtain ⟨before, id, after, n, rfl, _, _, hn, first, s, rest, hsplit, _, hfault⟩ := h
  intro hclean
  refine hclean id (by simp) n hn s ?_ ⟨e, hfault⟩
  rw [hsplit]
  exact List.mem_append_right _ List.mem_cons_self

/-- The generator goes through an order up to the first fault.  The induction is on what is left of
the order; the nodes already done have their variables, and they are all that the others read. -/
lemma emit_of_producersFirst (table : SymbolTable) (done ids : List NodeId)
    (hconforms : ∀ n ∈ g.nodes, n.Conforms)
    (hknown : ∀ id ∈ done ++ ids, id < g.nodes.length)
    (hfirst : g.ProducersFirst (done ++ ids))
    (htable : ∀ p ∈ done, ∃ symbol, table.lookupNode p = some symbol) :
    ((g.emit table ids).failure = none ∧ ∀ id ∈ ids, g.Clean id) ∨
      ∃ k e, g.FirstFault ids k e ∧ (g.emit table ids).failure = some e ∧
        (g.emit table ids).assignments.length = k := by
  induction ids generalizing table done with
  | nil => exact Or.inl ⟨rfl, by simp⟩
  | cons id ids ih =>
    obtain ⟨n, hn⟩ := exists_node (hknown id (by simp))
    have hready : ∀ s ∈ n.sockets, g.Ready table s := by
      refine ready_of_producers (hconforms n (List.mem_of_getElem? hn)) fun p hp => ?_
      have hdone : p ∈ done := hfirst done id ids rfl p (reads_iff.mpr ⟨n, hn, hp⟩)
      obtain ⟨symbol, hsymbol⟩ := htable p hdone
      obtain ⟨m, hm⟩ := exists_node (hknown p (List.mem_append_left _ hdone))
      exact ⟨m, symbol, hm, hsymbol⟩
    rcases assign_of_ready hn (hconforms n (List.mem_of_getElem? hn)) hready with
      ⟨a, ha, hclean⟩ | ⟨e, he, hfault⟩
    · have hsplit : done ++ id :: ids = (done ++ [id]) ++ ids := by simp
      have htable' : ∀ p ∈ done ++ [id],
          ∃ symbol, (table.allocate id n.output).2.lookupNode p = some symbol := by
        intro p hp
        rw [SymbolTable.lookupNode_allocate]
        by_cases hid : id = p
        · exact ⟨_, if_pos hid⟩
        · rw [if_neg hid]
          exact htable p (by simpa [Ne.symm hid] using hp)
      rw [hsplit] at hknown hfirst
      simp only [emit, ha]
      rcases ih _ _ hknown hfirst htable' with
        ⟨hnone, hrest⟩ | ⟨k, e, hfirstFault, hsome, hlength⟩
      · exact Or.inl ⟨hnone, List.forall_mem_cons.mpr ⟨hclean, hrest⟩⟩
      · exact Or.inr ⟨k + 1, e, hfirstFault.cons hclean, hsome, by rw [List.length_cons, hlength]⟩
    · refine Or.inr ⟨0, e, ⟨[], id, ids, n, rfl, rfl, by simp, hn, hfault⟩, ?_, ?_⟩
      · simp only [emit, he]
      · simp only [emit, he, List.length_nil]

/-- Compiling a graph that has an order gives a shader if nothing is wrong, and the first fault
otherwise. -/
lemma compile_of_evaluate {order : List NodeId} (hconforms : ∀ n ∈ g.nodes, n.Conforms)
    (horder : g.evaluate = .ok order) (options : Options) :
    ((∃ shader, g.compile options = ⟨.ok shader, order.length⟩) ∧ ∀ id ∈ order, g.Clean id) ∨
      ∃ k e, g.FirstFault order k e ∧ g.compile options = ⟨.error e, k⟩ := by
  have hdependency := dependencyOrder_of_evaluate horder
  rcases emit_of_producersFirst SymbolTable.empty.push [] order hconforms hdependency.known
    hdependency.first (by simp) with
    ⟨hnone, hclean⟩ | ⟨k, e, hfault, hsome, hlength⟩
  · obtain ⟨root, hroot⟩ := exists_root_of_evaluate horder
    have hmem : root ∈ order := List.mem_of_getLast? (hdependency.last.trans hroot)
    exact Or.inl ⟨exists_shader_of_failure_eq_none options horder hroot hmem hnone, hclean⟩
  · refine Or.inr ⟨k, e, hfault, ?_⟩
    simp only [compile, horder, hsome, hlength]

/-- Compiling a graph that has no order says why, and generates nothing. -/
lemma compile_of_evaluate_eq_error {e : GraphError} (h : g.evaluate = .error e)
    (options : Options) : g.compile options = ⟨.error e, 0⟩ := by
  simp only [compile, h]

/-- An error of compiling says why there is no order, or what is wrong with a socket. -/
lemma trueOf_or_fault_of_compile (hconforms : ∀ n ∈ g.nodes, n.Conforms) {options : Options}
    {e : GraphError} (h : (g.compile options).result = .error e) :
    (g.evaluate = .error e ∧ e.TrueOf g) ∨ ∃ n s, g.Fault n s e := by
  cases horder : g.evaluate with
  | error e' =>
    rw [compile_of_evaluate_eq_error horder] at h
    obtain rfl := Except.error.inj h
    exact Or.inl ⟨rfl, trueOf_of_evaluate horder⟩
  | ok order =>
    rcases compile_of_evaluate hconforms horder options with
      ⟨⟨shader, hshader⟩, _⟩ | ⟨k, e', hfirst, hcompile⟩
    · rw [hshader] at h
      cases h
    · rw [hcompile] at h
      obtain rfl := Except.error.inj h
      obtain ⟨_, _, _, n, _, _, _, _, _, s, _, _, _, hfault⟩ := hfirst
      exact Or.inr ⟨n, s, hfault⟩

/-- The outcome of compiling a graph that can be built.  Without an order it is the error of the
search, and no variable is handed out.  If nothing is wrong with the nodes of the order, each of
them gets its variable and there is a shader.  Otherwise the first faulty socket of the first node
that has one is reported, and the nodes before that one have their variables.  The errors that only
a malformed node or order could cause do not occur. -/
theorem compile_outcome (g : Graph) (hg : g.Built) (options : Options) :
    (∀ e, g.evaluate = .error e → g.compile options = ⟨.error e, 0⟩) ∧
      (∀ order, g.evaluate = .ok order →
        ((∀ id ∈ order, g.Clean id) →
          ∃ shader, g.compile options = ⟨.ok shader, order.length⟩) ∧
        ((¬ ∀ id ∈ order, g.Clean id) →
          ∃ k e, g.FirstFault order k e ∧ g.compile options = ⟨.error e, k⟩) ∧
        ∀ p, (g.compile options).result ≠ .error (.unknownNode p)) ∧
      (∀ node producer, (g.compile options).result ≠ .error (.unresolved node producer)) ∧
      (∀ type expected found,
        (g.compile options).result ≠ .error (.arity type expected found)) ∧
      ∀ n ∈ g.nodes, ∀ s ∈ n.sockets, ∀ value,
        s.binding = some (.literal value) → value.type = s.type := by
  have hconforms := hg.conforms
  refine ⟨fun e he => compile_of_evaluate_eq_error he options, fun order horder => ⟨?_, ?_, ?_⟩,
    ?_, ?_, ?_⟩
  · intro hclean
    rcases compile_of_evaluate hconforms horder options with ⟨hshader, _⟩ | ⟨k, e, hfirst, _⟩
    · exact hshader
    · exact absurd hclean hfirst.not_clean
  · intro hfaulty
    rcases compile_of_evaluate hconforms horder options with ⟨_, hclean⟩ | hfirst
    · exact absurd hclean hfaulty
    · exact hfirst
  · intro p hp
    rcases trueOf_or_fault_of_compile hconforms hp with ⟨he, _⟩ | ⟨n, s, hfault⟩
    · rw [horder] at he
      cases he
    · cases hfault
  · intro node producer h
    rcases trueOf_or_fault_of_compile hconforms h with ⟨_, htrue⟩ | ⟨n, s, hfault⟩
    · exact htrue
    · cases hfault
  · intro type expected found h
    rcases trueOf_or_fault_of_compile hconforms h with ⟨_, htrue⟩ | ⟨n, s, hfault⟩
    · exact htrue
    · cases hfault
  · exact fun n hn s hs => (hconforms n hn).literal_type hs

/-- A graph in which a number is connected to a socket for colours. -/
def mistyped : Graph :=
  Graph.empty.edited
    [.add "mix" (.mix .mix) [.connect "Color1" 1],
      .add "grey" .rgbToBW [],
      .connect 0 "Color3" 1,
      .setRoot 0]

/-- The number is generated before the node that cannot read it is reported. -/
theorem compile_mistyped :
    mistyped.Built ∧ mistyped.evaluate = .ok [1, 0] ∧
      (¬ ∀ id ∈ [1, 0], mistyped.Clean id) ∧
      ∃ k e, mistyped.FirstFault [1, 0] k e ∧ mistyped.compile {} = ⟨.error e, k⟩ := by
  have hbuilt : mistyped.Built := ⟨_, rfl⟩
  have horder : mistyped.evaluate = .ok [1, 0] := by cbv
  have hgrey : mistyped.nodes[1]? = some (Node.new "grey" .rgbToBW) := by decide
  have hfaulty : ¬ ∀ id ∈ [1, 0], mistyped.Clean id := by
    intro hclean
    exact hclean 0 (by simp)
      ((Node.new "mix" (.mix .mix)).bind "Color1" (some (.connection 1))) (by decide)
      ⟨"Color1", .vec3, some (.connection 1)⟩ (by decide)
      ⟨_, Fault.mismatch rfl hgrey (by decide)⟩
  exact ⟨hbuilt, horder, hfaulty,
    ((compile_outcome mistyped hbuilt {}).2.1 [1, 0] horder).2.1 hfaulty⟩

end Graph

end MaterialGraph
