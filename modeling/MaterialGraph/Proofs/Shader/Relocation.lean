import Mathlib
import MaterialGraph.Proofs.Order.Evaluate
import MaterialGraph.Proofs.Order.Relocation
import MaterialGraph.Proofs.Shader.Emission

/-!
# Where the nodes of a graph lie

Compiling does not depend on the places of the nodes, nor on nodes that the output does not depend
on.  Both follow from one statement about relocated graphs, `Graph.Relocation.compile_eq`: the
outcome is the same, with the ids in the variables led to their new places.

The tables of variables of the two runs are tied by `SymbolTable.Relocation`: they go on with the
same numbers, and find the same variables for reachable nodes.  Generating a node keeps the tie
(`Relocation.assign`), and so does generating a list of nodes (`Relocation.emit_eq`).

Main statements:

* `evaluate_and_compile_permuted`: the nodes of a graph may be put into any other order;
* `evaluate_and_compile_of_agree`: graphs that have the same nodes at the ids reachable from the
  root have the same order and the same outcome, whatever their other nodes are.
-/

namespace MaterialGraph

variable {f : NodeId → NodeId}

/-! ### Programs at other places -/

/-- A variable when its node lies at another place. -/
def Symbol.relocate (f : NodeId → NodeId) (s : Symbol) : Symbol :=
  { s with node := f s.node }

/-- An assignment when its node lies at another place. -/
def Assignment.relocate (f : NodeId → NodeId) (a : Assignment) : Assignment :=
  { a with symbol := a.symbol.relocate f }

/-- What was emitted, when the nodes lie at other places. -/
def Emission.relocate (f : NodeId → NodeId) (e : Emission) : Emission :=
  { e with assignments := e.assignments.map (Assignment.relocate f) }

/-- A shader when the nodes lie at other places: the ids in its variables are others, its text is
the same. -/
def Shader.relocate (f : NodeId → NodeId) (s : Shader) : Shader :=
  { s with
    result := s.result.relocate f
    bindings := s.bindings.map fun b => (f b.1, b.2.relocate f) }

/-- The outcome of compiling when the nodes lie at other places. -/
def Outcome.relocate (f : NodeId → NodeId) (o : Outcome) : Outcome :=
  { o with result := o.result.map (Shader.relocate f) }

/-- A shader stays if every place does. -/
lemma Shader.relocate_id : Shader.relocate id = id := by
  funext s
  simp [Shader.relocate, Symbol.relocate]

/-- An outcome stays if every place does. -/
lemma Outcome.relocate_id (o : Outcome) : o.relocate id = o := by
  obtain ⟨result, allocated⟩ := o
  cases result <;> simp [Outcome.relocate, Except.map, Shader.relocate_id]

/-- The text of a shader does not show the places of the nodes. -/
lemma Shader.ofProgram_relocate (options : Options) (program : List Assignment)
    (result : Symbol) :
    ofProgram options (program.map (Assignment.relocate f)) (result.relocate f) =
      (ofProgram options program result).relocate f := by
  have hstatements : (program.map (Assignment.relocate f)).map
      (Assignment.statement · options.nodeComments) =
        program.map (Assignment.statement · options.nodeComments) := by
    rw [List.map_map]
    rfl
  have hbindings : (program.map (Assignment.relocate f)).map (fun a => (a.symbol.node, a.symbol)) =
      (program.map fun a => (a.symbol.node, a.symbol)).map
        fun b => (f b.1, b.2.relocate f) := by
    rw [List.map_map, List.map_map]
    rfl
  unfold ofProgram Shader.relocate
  rw [hstatements, hbindings]
  rfl

/-! ### Tables of variables -/

/-- A table goes on with the same numbers as another one, and has the variables of reachable nodes
at their new places. -/
structure SymbolTable.Relocation (g : Graph) (f : NodeId → NodeId) (table table' : SymbolTable) :
    Prop where
  counters : table'.counters = table.counters
  lookup : ∀ id, g.Reachable id →
    table'.lookupNode (f id) = (table.lookupNode id).map (Symbol.relocate f)

namespace Graph.Relocation

variable {g g' : Graph} {table table' : SymbolTable} {id : NodeId}

/-- Tables that are tied hand out the same variable. -/
lemma allocate_symbol (htable : table.Relocation g f table') (type : ValueType) :
    (table'.allocate (f id) type).1 = (table.allocate id type).1.relocate f := by
  rw [SymbolTable.allocate_symbol, SymbolTable.allocate_symbol, htable.counters]
  rfl

/-- Tables that are tied stay so when a variable is handed out. -/
lemma allocate_table (h : g.Relocation g' f) (htable : table.Relocation g f table')
    (hid : g.Reachable id) (type : ValueType) :
    SymbolTable.Relocation g f (table.allocate id type).2 (table'.allocate (f id) type).2 where
  counters := by
    rw [SymbolTable.counters_allocate, SymbolTable.counters_allocate, htable.counters]
  lookup := by
    intro other hother
    rw [SymbolTable.lookupNode_allocate, SymbolTable.lookupNode_allocate,
      allocate_symbol htable, htable.lookup other hother]
    by_cases hsame : id = other
    · rw [if_pos hsame, if_pos (congrArg f hsame), Option.map_some]
    · rw [if_neg hsame, if_neg fun heq => hsame ((h.eq_iff hid hother).mp heq)]

/-! ### Generating nodes -/

/-- A socket reads the same, if the node it is connected to is reachable. -/
lemma argument_eq (h : g.Relocation g' f) (htable : table.Relocation g f table') (n : Node)
    {s : Socket} (hs : ∀ p, s.binding = some (.connection p) → g.Reachable p) :
    g'.argument table' (n.relocate f) (s.relocate f) = g.argument table n s := by
  obtain ⟨name, type, binding⟩ := s
  cases binding with
  | none => rfl
  | some binding =>
    cases binding with
    | literal value => rfl
    | connection p =>
      have hp : g.Reachable p := hs p rfl
      simp only [argument, Socket.relocate, Option.map_some, Binding.relocate, h.node_relocate hp,
        htable.lookup p hp]
      cases g.node p with
      | error e => rfl
      | ok producer =>
        cases table.lookupNode p <;> rfl

/-- The sockets of a reachable node read the same. -/
lemma arguments_eq (h : g.Relocation g' f) (htable : table.Relocation g f table') (n : Node)
    {sockets : List Socket}
    (hsockets : ∀ s ∈ sockets, ∀ p, s.binding = some (.connection p) → g.Reachable p) :
    g'.arguments table' (n.relocate f) (sockets.map (Socket.relocate f)) =
      g.arguments table n sockets := by
  induction sockets with
  | nil => rfl
  | cons s sockets ih =>
    obtain ⟨hhead, htail⟩ := List.forall_mem_cons.mp hsockets
    rw [List.map_cons, arguments, arguments, h.argument_eq htable n hhead, ih htail]

/-- A reachable node is generated in the same way, and the tables stay tied. -/
lemma assign (h : g.Relocation g' f) (htable : table.Relocation g f table')
    (hid : g.Reachable id) :
    (∃ e, g.assign table id = .error e ∧ g'.assign table' (f id) = .error e) ∨
      ∃ a next next', g.assign table id = .ok (a, next) ∧
        g'.assign table' (f id) = .ok (a.relocate f, next') ∧ next.Relocation g f next' := by
  unfold Graph.assign
  rw [h.node_relocate hid]
  cases hn : g.node id with
  | error e => exact Or.inl ⟨e, rfl, rfl⟩
  | ok n =>
    have hsockets : ∀ s ∈ n.sockets, ∀ p, s.binding = some (.connection p) → g.Reachable p := by
      intro s hs p hp
      have hmem : p ∈ n.producers := Node.mem_producers_iff.mpr ⟨s, hs, hp⟩
      exact hid.reads (reads_iff.mpr ⟨n, node_eq_ok_iff.mp hn, hmem⟩)
    have harguments : g'.arguments table' (n.relocate f) (n.relocate f).sockets =
        g.arguments table n n.sockets := h.arguments_eq htable n hsockets
    simp only [Except.map, harguments]
    cases g.arguments table n n.sockets with
    | error e => exact Or.inl ⟨e, rfl, rfl⟩
    | ok arguments =>
      have hkind : (n.relocate f).kind = n.kind := rfl
      simp only [hkind]
      cases n.kind.generate (arguments.map Argument.text) with
      | error e => exact Or.inl ⟨e, rfl, rfl⟩
      | ok code =>
        refine Or.inr ⟨_, _, _, rfl, ?_, h.allocate_table htable hid n.output⟩
        rw [Assignment.relocate, ← allocate_symbol htable]
        rfl

/-- Reachable nodes are generated in the same way, one after the other. -/
theorem emit_eq (h : g.Relocation g' f) (htable : table.Relocation g f table')
    {ids : List NodeId} (hids : ∀ id ∈ ids, g.Reachable id) :
    g'.emit table' (ids.map f) = (g.emit table ids).relocate f := by
  induction ids generalizing table table' with
  | nil => rfl
  | cons id ids ih =>
    obtain ⟨hid, hrest⟩ := List.forall_mem_cons.mp hids
    rw [List.map_cons, emit, emit]
    rcases h.assign htable hid with ⟨e, he, he'⟩ | ⟨a, next, next', ha, ha', hnext⟩
    · rw [he, he']
      rfl
    · rw [ha, ha']
      simp only [ih hnext hrest]
      rfl

/-! ### Compiling -/

/-- The variable of the root is found at its new place. -/
lemma find?_program (h : g.Relocation g' f) {root : NodeId} (hroot : g.Reachable root)
    {program : List Assignment} (hprogram : ∀ a ∈ program, g.Reachable a.symbol.node) :
    (program.map (Assignment.relocate f)).find? (fun a => a.symbol.node == f root) =
      (program.find? fun a => a.symbol.node == root).map (Assignment.relocate f) := by
  induction program with
  | nil => rfl
  | cons a program ih =>
    obtain ⟨ha, hrest⟩ := List.forall_mem_cons.mp hprogram
    have hsame : ((a.relocate f).symbol.node == f root) = (a.symbol.node == root) := by
      rw [Bool.eq_iff_iff, beq_iff_eq, beq_iff_eq]
      exact h.eq_iff ha hroot
    rw [List.map_cons, List.find?_cons, List.find?_cons, hsame, ih hrest]
    cases a.symbol.node == root <;> rfl

/-- The name of a reachable node does not depend on its place. -/
lemma label_eq (h : g.Relocation g' f) (hid : g.Reachable id) : g'.label (f id) = g.label id := by
  unfold label
  cases hn : g.nodes[id]? with
  | none => rw [h.nodes_of_eq_none hid hn, h.outside id hid hn]
  | some n =>
    rw [h.nodes_of_eq_some hid hn]
    rfl

/-- The shader of a program is the same at the new places. -/
lemma shader_eq (h : g.Relocation g' f) (options : Options) {program : List Assignment}
    (hprogram : ∀ a ∈ program, g.Reachable a.symbol.node) :
    g'.shader options (program.map (Assignment.relocate f)) =
      (g.shader options program).map (Shader.relocate f) := by
  unfold shader
  cases hroot : g.root with
  | none =>
    rw [h.root, hroot]
    rfl
  | some root =>
    have hreach : g.Reachable root := ⟨root, hroot, .refl⟩
    rw [h.root, hroot, Option.map_some]
    simp only [h.find?_program hreach hprogram, h.label_eq hreach]
    cases program.find? fun a => a.symbol.node == root with
    | none => rfl
    | some a => exact congrArg Except.ok (Shader.ofProgram_relocate options program a.symbol)

/-- Compiling a relocated graph has the same outcome, with the ids at their new places. -/
theorem compile_eq (h : g.Relocation g' f) (options : Options) :
    g'.compile options = (g.compile options).relocate f := by
  unfold compile
  rw [h.evaluate_eq]
  cases horder : g.evaluate with
  | error e => rfl
  | ok order =>
    have hreach : ∀ id ∈ order, g.Reachable id :=
      fun id hid => ((dependencyOrder_of_evaluate horder).mem_iff id).mp hid
    have htable : SymbolTable.Relocation g f SymbolTable.empty.push SymbolTable.empty.push :=
      ⟨rfl, fun _ _ => rfl⟩
    have hemit := h.emit_eq htable hreach
    simp only [Except.map, hemit, Emission.relocate]
    cases hfailure : (g.emit SymbolTable.empty.push order).failure with
    | some e => simp [Outcome.relocate, Except.map]
    | none =>
      have hprogram : ∀ a ∈ (g.emit SymbolTable.empty.push order).assignments,
          g.Reachable a.symbol.node := by
        intro a ha
        have hmem := List.mem_map_of_mem (f := fun a => a.symbol.node) ha
        rw [(emits_of_failure_eq_none hfailure).map_node] at hmem
        exact hreach _ hmem
      simp [Outcome.relocate, h.shader_eq options hprogram]

end Graph.Relocation

namespace Graph

/-! ### Nodes in another order -/

/-- The places of the nodes after a permutation.  An id outside the graph stays. -/
def placement (g : Graph) (p : Equiv.Perm (Fin g.nodes.length)) (id : NodeId) : NodeId :=
  if h : id < g.nodes.length then p ⟨id, h⟩ else id

/-- The graph with its nodes in another order: the one at place `i` is put at place `p i`, and the
connections and the root follow. -/
def permuted (g : Graph) (p : Equiv.Perm (Fin g.nodes.length)) : Graph where
  nodes := List.ofFn fun i => (g.nodes.get (p.symm i)).relocate (g.placement p)
  root := g.root.map (g.placement p)

variable {g : Graph} {p : Equiv.Perm (Fin g.nodes.length)}

/-- The place of a node after a permutation. -/
lemma placement_of_lt {id : NodeId} (h : id < g.nodes.length) :
    g.placement p id = p ⟨id, h⟩ :=
  dif_pos h

/-- An id outside the graph stays. -/
lemma placement_of_le {id : NodeId} (h : g.nodes.length ≤ id) : g.placement p id = id :=
  dif_neg (Nat.not_lt.mpr h)

/-- A permutation does not bring two ids together. -/
lemma placement_injective : Function.Injective (g.placement p) := by
  intro a b hab
  rcases Nat.lt_or_ge a g.nodes.length with ha | ha <;>
    rcases Nat.lt_or_ge b g.nodes.length with hb | hb
  · rw [placement_of_lt ha, placement_of_lt hb] at hab
    exact Fin.mk.inj (p.injective (Fin.ext hab))
  · rw [placement_of_lt ha, placement_of_le hb] at hab
    exact absurd (hab ▸ (p ⟨a, ha⟩).isLt) (Nat.not_lt.mpr hb)
  · rw [placement_of_le ha, placement_of_lt hb] at hab
    exact absurd (hab ▸ (p ⟨b, hb⟩).isLt) (Nat.not_lt.mpr ha)
  · rwa [placement_of_le ha, placement_of_le hb] at hab

/-- The node at a place is found at its place after the permutation. -/
lemma getElem?_permuted (id : NodeId) :
    (g.permuted p).nodes[g.placement p id]? =
      g.nodes[id]?.map (Node.relocate (g.placement p)) := by
  rcases Nat.lt_or_ge id g.nodes.length with hid | hid
  · have hplace : g.placement p id < g.nodes.length := by
      rw [placement_of_lt hid]
      exact (p ⟨id, hid⟩).isLt
    have hback : p.symm ⟨g.placement p id, hplace⟩ = ⟨id, hid⟩ := by
      rw [Equiv.symm_apply_eq]
      exact Fin.ext (placement_of_lt hid)
    simp [permuted, hplace, hback, hid]
  · rw [placement_of_le hid, List.getElem?_eq_none hid, Option.map_none, List.getElem?_eq_none]
    simpa [permuted] using hid

/-- A graph with its nodes in another order is a relocation. -/
lemma relocation_permuted (g : Graph) (p : Equiv.Perm (Fin g.nodes.length)) :
    g.Relocation (g.permuted p) (g.placement p) where
  root := rfl
  nodes := fun id _ => getElem?_permuted id
  injective := placement_injective.injOn
  outside := fun _ _ hnone => placement_of_le (List.getElem?_eq_none_iff.mp hnone)

/-- The order of the nodes does not matter.  When they are permuted, the order of generation is
permuted with them, or the error is the same.  Compiling has the same outcome: the same error after
as many variables, or the same text, with the ids in the variables permuted. -/
theorem evaluate_and_compile_permuted (g : Graph) (p : Equiv.Perm (Fin g.nodes.length)) :
    (g.permuted p).evaluate = g.evaluate.map (List.map (g.placement p)) ∧
      ∀ options, (g.permuted p).compile options =
        (g.compile options).relocate (g.placement p) := by
  have h := relocation_permuted g p
  exact ⟨h.evaluate_eq, h.compile_eq⟩

-- every node of the diamond moves up by one place, and the last one to the front
example : (diamond.permuted (finRotate 5)).evaluate = .ok [4, 2, 3, 1] := by cbv

/-! ### Nodes that the output does not depend on -/

/-- Only the nodes that the output depends on matter.  If two graphs have the same root and the
same nodes at all ids that are reachable in the first one, they have the same order of generation
or the same error, and compiling them has the same outcome. -/
theorem evaluate_and_compile_of_agree (g g' : Graph) (hroot : g'.root = g.root)
    (hnodes : ∀ id, g.Reachable id → g'.nodes[id]? = g.nodes[id]?) :
    g'.evaluate = g.evaluate ∧ ∀ options, g'.compile options = g.compile options := by
  have h := relocation_id hroot hnodes
  refine ⟨?_, fun options => ?_⟩
  · rw [h.evaluate_eq]
    cases g.evaluate <;> simp [Except.map]
  · rw [h.compile_eq options, Outcome.relocate_id]

/-- The diamond with other nodes that the root does not depend on: one that reads itself and the
root, one that reads an id outside the graph, and one without a value that it needs. -/
def overgrown : Graph where
  nodes := diamond.nodes.take 4 ++
    [((Node.new "loop" (.mix .mix)).bind "Color1" (some (.connection 4))).bind "Color2"
        (some (.connection 0)),
      (Node.new "astray" (.math .add)).bind "Value1" (some (.connection 9)),
      Node.new "bare" .materialOutput]
  root := some 0

/-- The other nodes do not change the order of the diamond nor its shader. -/
theorem evaluate_and_compile_overgrown :
    overgrown.root = diamond.root ∧
      (∀ id, diamond.Reachable id → overgrown.nodes[id]? = diamond.nodes[id]?) ∧
      overgrown.evaluate = .ok [3, 1, 2, 0] ∧ overgrown.compile {} = diamond.compile {} := by
  have horder : diamond.evaluate = .ok [3, 1, 2, 0] := by cbv
  have hnodes : ∀ id, diamond.Reachable id → overgrown.nodes[id]? = diamond.nodes[id]? := by
    intro id hid
    have hmem := ((dependencyOrder_of_evaluate horder).mem_iff id).mpr hid
    have hall : ∀ id ∈ [3, 1, 2, 0], overgrown.nodes[id]? = diamond.nodes[id]? := by decide
    exact hall id hmem
  obtain ⟨hevaluate, hcompile⟩ := evaluate_and_compile_of_agree diamond overgrown rfl hnodes
  exact ⟨rfl, hnodes, hevaluate.trans horder, hcompile {}⟩

end Graph

end MaterialGraph
