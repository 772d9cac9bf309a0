import Mathlib.Data.List.Forall2
import MaterialGraph.Proofs.Order.Dependence
import MaterialGraph.Proofs.Scope.Allocation
import MaterialGraph.Shader.Body

/-!
# Programs that are emitted

What it means that a list of nodes has been turned into a program, said without errors and tables
of results: an argument stands for a socket (`Graph.Resolves`), an assignment stands for a node
(`Graph.Assigned`), a program stands for a list of nodes (`Graph.Emits`).  The generator gives such
programs and nothing else (`emits_of_failure_eq_none`, `exists_emits_of_compile`), so that
properties of programs are proved by induction on `Graph.Emits`.

The first of them are that the variables belong to the nodes in order (`Emits.map_node`) and that
no name is used twice (`Emits.nodup_names`).
-/

namespace MaterialGraph

namespace Graph

/-- An argument stands for a socket: it is the text of a literal of the socket's type, or the
variable of a producer whose output has that type. -/
inductive Resolves (g : Graph) (table : SymbolTable) (s : Socket) : Argument → Prop where
  | literal {value : Literal} (hbinding : s.binding = some (.literal value))
      (htype : value.type = s.type) : Resolves g table s (.literal value.text)
  | symbol {p : NodeId} {producer : Node} {symbol : Symbol}
      (hbinding : s.binding = some (.connection p)) (hp : g.nodes[p]? = some producer)
      (htype : producer.output = s.type) (hsymbol : table.lookupNode p = some symbol) :
      Resolves g table s (.symbol symbol.name)

/-- An assignment stands for a node, given the variables visible before it. -/
structure Assigned (g : Graph) (table : SymbolTable) (id : NodeId) (n : Node) (a : Assignment) :
    Prop where
  node : g.nodes[id]? = some n
  arguments : List.Forall₂ (g.Resolves table) n.sockets a.arguments
  code : n.kind.generate (a.arguments.map Argument.text) = .ok a.code
  kind : a.kind = n.kind
  label : a.label = n.name
  symbol : a.symbol = (table.allocate id n.output).1

/-- A program stands for a list of nodes: each assignment sees the variables of those before it. -/
inductive Emits (g : Graph) : SymbolTable → List NodeId → List Assignment → Prop where
  | nil {table : SymbolTable} : Emits g table [] []
  | cons {table : SymbolTable} {id : NodeId} {ids : List NodeId} {n : Node} {a : Assignment}
      {program : List Assignment} (hassigned : g.Assigned table id n a)
      (hrest : Emits g (table.allocate id n.output).2 ids program) :
      Emits g table (id :: ids) (a :: program)

/-- The program that compiling a graph makes. -/
def program (g : Graph) : List Assignment :=
  match g.evaluate with
  | .ok order => (g.emit SymbolTable.empty.push order).assignments
  | .error _ => []

variable {g : Graph} {table : SymbolTable} {n : Node}

/-! ### The generator -/

/-- The generator finds an argument just if it stands for the socket. -/
lemma argument_eq_ok_iff {s : Socket} {a : Argument} :
    g.argument table n s = .ok a ↔ g.Resolves table s a := by
  constructor
  · intro h
    unfold argument at h
    split at h
    · cases h
    · rename_i value hbinding
      split at h
      · rename_i htype
        rw [← Except.ok.inj h]
        exact Resolves.literal hbinding htype
      · cases h
    · rename_i p hbinding
      split at h
      · cases h
      · rename_i producer hproducer
        split at h
        · rename_i htype
          split at h
          · rename_i symbol hsymbol
            rw [← Except.ok.inj h]
            exact Resolves.symbol hbinding (node_eq_ok_iff.mp hproducer) htype hsymbol
          · cases h
        · cases h
  · intro h
    unfold argument
    cases h with
    | literal hbinding htype => simp [hbinding, htype]
    | symbol hbinding hp htype hsymbol =>
      simp [hbinding, node_eq_ok_iff.mpr hp, htype, hsymbol]

/-- The generator finds arguments just if they stand for the sockets one by one. -/
lemma arguments_eq_ok_iff {sockets : List Socket} {arguments : List Argument} :
    g.arguments table n sockets = .ok arguments ↔
      List.Forall₂ (g.Resolves table) sockets arguments := by
  induction sockets generalizing arguments with
  | nil =>
    unfold Graph.arguments
    rw [List.forall₂_nil_left_iff, Except.ok.injEq, eq_comm]
  | cons s sockets ih =>
    constructor
    · intro h
      unfold Graph.arguments at h
      cases ha : g.argument table n s with
      | error e => simp [ha] at h
      | ok a =>
        cases has : g.arguments table n sockets with
        | error e => simp [ha, has] at h
        | ok rest =>
          simp only [ha, has, Except.ok.injEq] at h
          rw [← h]
          exact List.Forall₂.cons (argument_eq_ok_iff.mp ha) (ih.mp has)
    · intro h
      cases h with
      | cons ha has =>
        unfold Graph.arguments
        rw [argument_eq_ok_iff.mpr ha, ih.mpr has]

/-- An assignment that is made stands for its node, and its variable is new. -/
lemma assigned_of_assign {id : NodeId} {a : Assignment} {table' : SymbolTable}
    (h : g.assign table id = .ok (a, table')) :
    ∃ n, g.Assigned table id n a ∧ table' = (table.allocate id n.output).2 := by
  unfold assign at h
  cases hn : g.node id with
  | error e => simp [hn] at h
  | ok n =>
    cases has : g.arguments table n n.sockets with
    | error e => simp [hn, has] at h
    | ok arguments =>
      cases hcode : n.kind.generate (arguments.map Argument.text) with
      | error e => simp [hn, has, hcode] at h
      | ok code =>
        simp only [hn, has, hcode, Except.ok.injEq, Prod.mk.injEq] at h
        obtain ⟨rfl, rfl⟩ := h
        exact ⟨n, ⟨node_eq_ok_iff.mp hn, arguments_eq_ok_iff.mp has, hcode, rfl, rfl, rfl⟩, rfl⟩

/-- When every node could be generated, the program stands for the nodes. -/
theorem emits_of_failure_eq_none {ids : List NodeId} (h : (g.emit table ids).failure = none) :
    g.Emits table ids (g.emit table ids).assignments := by
  induction ids generalizing table with
  | nil => exact Emits.nil
  | cons id ids ih =>
    cases ha : g.assign table id with
    | error e => simp [emit, ha] at h
    | ok made =>
      obtain ⟨n, hassigned, htable⟩ := assigned_of_assign ha
      simp only [emit, ha] at h ⊢
      have hrest := ih h
      rw [htable] at hrest ⊢
      exact Emits.cons hassigned hrest

/-- A graph that compiles has an order, its program stands for that order, and the shader is made
from the program and the variable of the root. -/
theorem exists_emits_of_compile {options : Options} {shader : Shader}
    (h : (g.compile options).result = .ok shader) :
    ∃ order root a, g.evaluate = .ok order ∧ g.Emits SymbolTable.empty.push order g.program ∧
      g.root = some root ∧ a ∈ g.program ∧ a.symbol.node = root ∧
      shader = Shader.ofProgram options g.program a.symbol := by
  unfold compile at h
  cases horder : g.evaluate with
  | error e => simp [horder] at h
  | ok order =>
    have hprogram : g.program = (g.emit SymbolTable.empty.push order).assignments := by
      unfold program
      rw [horder]
    cases hfailure : (g.emit SymbolTable.empty.push order).failure with
    | some e => simp [horder, hfailure] at h
    | none =>
      simp only [horder, hfailure, ← hprogram] at h
      have hemits := emits_of_failure_eq_none hfailure
      rw [← hprogram] at hemits
      unfold Graph.shader at h
      cases hroot : g.root with
      | none => simp [hroot] at h
      | some root =>
        cases ha : g.program.find? fun a => a.symbol.node == root with
        | none => simp [hroot, ha] at h
        | some a =>
          simp only [hroot, ha, Except.ok.injEq] at h
          have hnode : a.symbol.node = root := by simpa using List.find?_some ha
          exact ⟨order, root, a, rfl, hemits, rfl, List.mem_of_find?_eq_some ha, hnode, h.symm⟩

/-- A graph that compiles does so under all options, from the same program and with the same
variable as its result. -/
lemma compile_of_compile {options : Options} {shader : Shader}
    (h : (g.compile options).result = .ok shader) (options' : Options) :
    (g.compile options').result = .ok (Shader.ofProgram options' g.program shader.result) := by
  unfold compile program at *
  cases horder : g.evaluate with
  | error e => simp [horder] at h
  | ok order =>
    cases hfailure : (g.emit SymbolTable.empty.push order).failure with
    | some e => simp [horder, hfailure] at h
    | none =>
      simp only [horder, hfailure] at h ⊢
      unfold Graph.shader at *
      cases hroot : g.root with
      | none => simp [hroot] at h
      | some root =>
        cases ha : (g.emit SymbolTable.empty.push order).assignments.find?
            fun a => a.symbol.node == root with
        | none => simp [hroot, ha] at h
        | some a =>
          simp only [hroot, ha, Except.ok.injEq] at h ⊢
          rw [← h]
          rfl

/-! ### Variables of a program -/

namespace Emits

variable {ids : List NodeId} {program : List Assignment}

/-- The variables belong to the nodes, in order. -/
lemma map_node (h : g.Emits table ids program) : program.map (·.symbol.node) = ids := by
  induction h with
  | nil => rfl
  | cons hassigned _ ih =>
    rw [List.map_cons, ih, hassigned.symbol, SymbolTable.allocate_symbol]

/-- The code of an assignment is what its kind generates from the arguments. -/
lemma generate_eq_code (h : g.Emits table ids program) :
    ∀ a ∈ program, a.kind.generate (a.arguments.map Argument.text) = .ok a.code := by
  induction h with
  | nil => simp
  | cons hassigned _ ih =>
    intro b hb
    rcases List.mem_cons.mp hb with rfl | hb
    · rw [hassigned.kind]
      exact hassigned.code
    · exact ih b hb

/-- Numbers that are used are not below those that the table goes on with. -/
lemma exists_number (h : g.Emits table ids program) :
    ∀ a ∈ program, ∃ k, a.symbol.name = SymbolTable.nameOf a.symbol.type k ∧
      table.counters.get a.symbol.type ≤ k := by
  induction h with
  | nil => simp
  | @cons table id ids n a program hassigned _ ih =>
    intro b hb
    rcases List.mem_cons.mp hb with rfl | hb
    · rw [hassigned.symbol, SymbolTable.allocate_symbol]
      exact ⟨_, rfl, Nat.le_refl _⟩
    · obtain ⟨k, hname, hk⟩ := ih b hb
      rw [SymbolTable.counters_allocate, Counters.get_bump] at hk
      exact ⟨k, hname, Nat.le_of_add_right_le hk⟩

/-- No name is used twice. -/
theorem nodup_names (h : g.Emits table ids program) : (program.map (·.symbol.name)).Nodup := by
  induction h with
  | nil => exact List.nodup_nil
  | @cons table id ids n a program hassigned hrest ih =>
    rw [List.map_cons, List.nodup_cons]
    refine ⟨fun hmem => ?_, ih⟩
    obtain ⟨b, hb, hname⟩ := List.mem_map.mp hmem
    obtain ⟨k, hk, hle⟩ := hrest.exists_number b hb
    -- a name that comes again would need a number that has been used up
    rw [hk, hassigned.symbol, SymbolTable.allocate_symbol, SymbolTable.nameOf_inj] at hname
    obtain ⟨htype, hnumber⟩ := hname
    rw [SymbolTable.counters_allocate, Counters.get_bump, htype, if_pos rfl, hnumber] at hle
    exact Nat.not_succ_le_self _ hle

end Emits

/-- A graph compiles when every node of its order could be generated. -/
theorem exists_shader_of_failure_eq_none (options : Options) {order : List NodeId}
    {root : NodeId} (horder : g.evaluate = .ok order) (hroot : g.root = some root)
    (hmem : root ∈ order) (h : (g.emit SymbolTable.empty.push order).failure = none) :
    ∃ shader, g.compile options = ⟨.ok shader, order.length⟩ := by
  have hnodes := (emits_of_failure_eq_none h).map_node
  have hlength : (g.emit SymbolTable.empty.push order).assignments.length = order.length := by
    rw [← List.length_map (·.symbol.node), hnodes]
  -- the root is in the order, so one of the variables belongs to it
  have hfound : ((g.emit SymbolTable.empty.push order).assignments.find?
      fun a => a.symbol.node == root).isSome := by
    rw [← hnodes] at hmem
    obtain ⟨a, ha, hnode⟩ := List.mem_map.mp hmem
    rw [List.find?_isSome]
    exact ⟨a, ha, by simpa using hnode⟩
  obtain ⟨a, ha⟩ := Option.isSome_iff_exists.mp hfound
  refine ⟨Shader.ofProgram options (g.emit SymbolTable.empty.push order).assignments a.symbol, ?_⟩
  simp only [compile, horder, h, shader, hroot, ha, hlength]

end Graph

end MaterialGraph
