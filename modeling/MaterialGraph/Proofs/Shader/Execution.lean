import Mathlib.Logic.Function.Basic
import MaterialGraph.Proofs.Order.Evaluate
import MaterialGraph.Proofs.Shader.Emission

/-!
# Execution of programs

A graph and its program can be given a meaning in any domain of values, once it is fixed what the
literals stand for and what each kind of node computes (`Meaning`).

* `Graph.value` reads the graph as a tree: a node is its kind applied to the values of its sockets,
  each computed afresh, however often a producer is shared.  The depth of the recursion is limited,
  as it would not end on a cycle.
* `Assignment.execute` runs a program: the assignments one after the other, each variable read from
  the environment that those before it have made.  Reading a name that has not been assigned stops
  the run without a result.

Main statement: `execute_program_eq_value` says that the program of a graph that compiles runs to
its end and leaves the value of the graph in the variable of the result.  The induction goes along
the program; `Agrees` ties the environment to the table of variables, and one assignment keeps it
(`Agrees.assign`) because the name it uses is a new one.
-/

namespace MaterialGraph

universe u

/-- What literals and kinds stand for in a domain of values. -/
structure Meaning (D : Type u) where
  literal : String → D
  kind : Kind → List D → D

/-- The values of the names that have been assigned. -/
abbrev Environment (D : Type u) := String → Option D

variable {D : Type u}

/-- The value of what is bound to a socket, given the values of the nodes. -/
def Socket.value (m : Meaning D) (nodes : NodeId → Option D) (s : Socket) : Option D :=
  match s.binding with
  | none => none
  | some (.literal value) => some (m.literal value.text)
  | some (.connection producer) => nodes producer

/-- The value of a node, computed by recursion over the graph: its kind applied to the values of its
sockets.  There is none if the recursion goes deeper than it may. -/
def Graph.value (g : Graph) (m : Meaning D) : Nat → NodeId → Option D
  | 0, _ => none
  | depth + 1, id =>
    match g.nodes[id]? with
    | none => none
    | some n => (n.sockets.mapM (Socket.value m (g.value m depth))).map (m.kind n.kind)

/-- The value of an argument. -/
def Argument.read (m : Meaning D) (env : Environment D) : Argument → Option D
  | literal text => some (m.literal text)
  | symbol name => env name

namespace Assignment

/-- Run one assignment. -/
def step (m : Meaning D) (env : Environment D) (a : Assignment) : Option (Environment D) :=
  (a.arguments.mapM (Argument.read m env)).map fun inputs =>
    Function.update env a.symbol.name (some (m.kind a.kind inputs))

/-- Run a program. -/
def execute (m : Meaning D) (env : Environment D) : List Assignment → Option (Environment D)
  | [] => some env
  | a :: program =>
    match a.step m env with
    | none => none
    | some env' => execute m env' program

end Assignment

/-- The environment of a run agrees with the table of variables: the variable of a node holds the
value of the node, for which the given depth is enough, and only names that the table has given out
are assigned. -/
structure Agrees (g : Graph) (m : Meaning D) (depth : Nat) (table : SymbolTable)
    (env : Environment D) : Prop where
  value : ∀ p symbol, table.lookupNode p = some symbol →
    ∃ v, env symbol.name = some v ∧ ∀ d, depth ≤ d → g.value m d p = some v
  used : ∀ name v, env name = some v →
    ∃ type k, name = SymbolTable.nameOf type k ∧ k < table.counters.get type

namespace Agrees

variable {g : Graph} {m : Meaning D} {depth : Nat} {table : SymbolTable} {env : Environment D}

/-- Before anything has been assigned, the environment agrees with the table. -/
lemma start (g : Graph) (m : Meaning D) : Agrees g m 0 SymbolTable.empty.push fun _ => none where
  value := by simp
  used := by simp

/-- An argument that stands for a socket has a value, and it is that of the socket. -/
lemma read (h : Agrees g m depth table env) {s : Socket} {a : Argument}
    (ha : g.Resolves table s a) :
    ∃ v, a.read m env = some v ∧ ∀ d, depth ≤ d → s.value m (g.value m d) = some v := by
  cases ha with
  | @literal value hbinding _ =>
    exact ⟨m.literal value.text, rfl, fun d _ => by simp [Socket.value, hbinding]⟩
  | @symbol p _ symbol hbinding _ _ hsymbol =>
    obtain ⟨v, henv, hv⟩ := h.value p symbol hsymbol
    exact ⟨v, henv, fun d hd => by simpa [Socket.value, hbinding] using hv d hd⟩

/-- The same for all sockets of a node. -/
lemma mapM_read (h : Agrees g m depth table env) {sockets : List Socket}
    {arguments : List Argument} (ha : List.Forall₂ (g.Resolves table) sockets arguments) :
    ∃ inputs, arguments.mapM (Argument.read m env) = some inputs ∧
      ∀ d, depth ≤ d → sockets.mapM (Socket.value m (g.value m d)) = some inputs := by
  induction ha with
  | nil => exact ⟨[], rfl, fun _ _ => rfl⟩
  | cons hhead _ ih =>
    obtain ⟨v, hread, hv⟩ := h.read hhead
    obtain ⟨inputs, hreads, hvs⟩ := ih
    exact ⟨v :: inputs, by simp [List.mapM_cons, hread, hreads],
      fun d hd => by simp [List.mapM_cons, hv d hd, hvs d hd]⟩

/-- The name that is given out next has not been assigned. -/
lemma fresh (h : Agrees g m depth table env) (type : ValueType) :
    env (SymbolTable.nameOf type (table.counters.get type)) = none := by
  cases henv : env (SymbolTable.nameOf type (table.counters.get type)) with
  | none => rfl
  | some v =>
    obtain ⟨type', k, hname, hk⟩ := h.used _ v henv
    obtain ⟨rfl, rfl⟩ := SymbolTable.nameOf_inj.mp hname
    exact absurd hk (Nat.lt_irrefl _)

/-- Running the assignment of a node puts the value of the node into a variable that had no value
before.  The environment agrees with the table afterwards, at a depth that is greater by one. -/
lemma assign (h : Agrees g m depth table env) {id : NodeId} {n : Node} {a : Assignment}
    (ha : g.Assigned table id n a) :
    ∃ v, a.step m env = some (Function.update env a.symbol.name (some v)) ∧
      (∀ d, depth + 1 ≤ d → g.value m d id = some v) ∧ env a.symbol.name = none ∧
      Agrees g m (depth + 1) (table.allocate id n.output).2
        (Function.update env a.symbol.name (some v)) := by
  obtain ⟨inputs, hreads, hinputs⟩ := h.mapM_read ha.arguments
  have hname : a.symbol.name =
      SymbolTable.nameOf n.output (table.counters.get n.output) := by
    rw [ha.symbol, SymbolTable.allocate_symbol]
  have hfresh : env a.symbol.name = none := by rw [hname]; exact h.fresh n.output
  have hvalue : ∀ d, depth + 1 ≤ d → g.value m d id = some (m.kind n.kind inputs) := by
    intro d hd
    obtain ⟨d, rfl⟩ := Nat.exists_eq_add_of_lt hd
    simp only [Graph.value, ha.node, hinputs (depth + d) (Nat.le_add_right _ _), Option.map_some]
  refine ⟨m.kind n.kind inputs, ?_, hvalue, hfresh, ?_, ?_⟩
  · rw [Assignment.step, hreads, Option.map_some, ha.kind]
  · intro p symbol hp
    rw [SymbolTable.lookupNode_allocate] at hp
    by_cases hid : id = p
    · rw [if_pos hid] at hp
      refine ⟨m.kind n.kind inputs, ?_, hid ▸ hvalue⟩
      rw [← Option.some.inj hp, ← ha.symbol, Function.update_self]
    · rw [if_neg hid] at hp
      obtain ⟨v, henv, hv⟩ := h.value p symbol hp
      have hne : symbol.name ≠ a.symbol.name := by
        intro heq
        rw [heq, hfresh] at henv
        cases henv
      refine ⟨v, by rw [Function.update_of_ne hne]; exact henv, fun d hd => ?_⟩
      exact hv d (Nat.le_of_succ_le hd)
  · intro name v hv
    rw [SymbolTable.counters_allocate]
    by_cases heq : name = a.symbol.name
    · refine ⟨n.output, table.counters.get n.output, heq.trans hname, ?_⟩
      rw [Counters.get_bump, if_pos rfl]
      exact Nat.lt_succ_self _
    · rw [Function.update_of_ne heq] at hv
      obtain ⟨type, k, hname', hk⟩ := h.used name v hv
      refine ⟨type, k, hname', ?_⟩
      rw [Counters.get_bump]
      exact Nat.lt_of_lt_of_le hk (Nat.le_add_right _ _)

/-- Running a program to its end: the environment keeps what it had, and the variable of every node
of the program holds the value of the node.  Each assignment adds at most one to the depth. -/
theorem execute (h : Agrees g m depth table env) {ids : List NodeId} {program : List Assignment}
    (hemits : g.Emits table ids program) :
    ∃ env', Assignment.execute m env program = some env' ∧
      (∀ name v, env name = some v → env' name = some v) ∧
      ∀ a ∈ program, ∃ v, env' a.symbol.name = some v ∧
        ∀ d, depth + ids.length ≤ d → g.value m d a.symbol.node = some v := by
  induction hemits generalizing env depth with
  | nil => exact ⟨env, rfl, fun _ _ hv => hv, by simp⟩
  | @cons table id ids n a program hassigned _ ih =>
    obtain ⟨v, hstep, hvalue, hfresh, hagrees⟩ := h.assign hassigned
    obtain ⟨env', hrun, hkept, hvariables⟩ := ih hagrees
    have hnode : a.symbol.node = id := by rw [hassigned.symbol, SymbolTable.allocate_symbol]
    have hlength : depth + (id :: ids).length = depth + 1 + ids.length := by
      rw [List.length_cons]
      omega
    refine ⟨env', by rw [Assignment.execute, hstep]; exact hrun, fun name w hw => ?_, ?_⟩
    · -- an assigned name is not the new one, so the assignment does not touch it
      have hne : name ≠ a.symbol.name := by
        intro heq
        rw [heq, hfresh] at hw
        cases hw
      exact hkept name w (by rw [Function.update_of_ne hne]; exact hw)
    · rw [hlength]
      intro b hb
      rcases List.mem_cons.mp hb with rfl | hb
      · refine ⟨v, hkept _ v (Function.update_self _ _ _), fun d hd => ?_⟩
        rw [hnode]
        exact hvalue d (Nat.le_of_add_right_le hd)
      · exact hvariables b hb

end Agrees

/-- The statements of a shader print a program in which no name is assigned twice: each of them
declares the variable of an assignment with the code that its kind generates from the arguments,
after the name of the node if comments are asked for.  In every domain of values the program runs to
its end from the empty environment, so that it never reads a name before it is assigned, and leaves
the value of the root in the variable of the result.  The recursion that computes that value never
goes deeper than there are nodes. -/
theorem execute_program_eq_value (g : Graph) (options : Options) (shader : Shader)
    (h : (g.compile options).result = .ok shader) :
    shader.statements = g.program.map (fun a =>
        (if options.nodeComments then "// " ++ a.label ++ "\n" else "")
          ++ a.symbol.type.name ++ " " ++ a.symbol.name ++ " = " ++ a.code ++ ";") ∧
      (∀ a ∈ g.program, a.kind.generate (a.arguments.map Argument.text) = .ok a.code) ∧
      (g.program.map (·.symbol.name)).Nodup ∧
      ∀ (D : Type u) (m : Meaning D), ∃ env root v,
        Assignment.execute m (fun _ => none) g.program = some env ∧ g.root = some root ∧
          (∀ depth, g.nodes.length ≤ depth → g.value m depth root = some v) ∧
          env shader.result.name = some v := by
  obtain ⟨order, root, a, horder, hemits, hroot, ha, hnode, rfl⟩ :=
    Graph.exists_emits_of_compile h
  have hlength := (Graph.dependencyOrder_of_evaluate horder).length_le
  refine ⟨rfl, hemits.generate_eq_code, hemits.nodup_names, fun D m => ?_⟩
  obtain ⟨env, hrun, _, hvariables⟩ := (Agrees.start g m).execute hemits
  obtain ⟨v, henv, hvalue⟩ := hvariables a ha
  refine ⟨env, root, v, hrun, hroot, fun depth hdepth => ?_, henv⟩
  rw [← hnode]
  exact hvalue depth (by omega)

/-- The meaning by which a graph counts the nodes it has as a tree. -/
def nodeCount : Meaning Nat where
  literal _ := 0
  kind _ inputs := inputs.foldl (· + ·) 1

/-- The diamond has five nodes as a tree, and a program of four assignments counts them.  After the
first one, each reads variables that are declared before. -/
theorem execute_program_diamond :
    ∃ shader, (Graph.diamond.compile { nodeComments := true }).result = .ok shader ∧
      shader.statements.drop 1 = ["// left\nvec3 vec3_1 = mix(vec3_0, vec3(1.0) - vec3_0, 1.0);",
        "// right\nvec3 vec3_2 = pow(vec3_0, vec3(1.0 / 2.2));",
        "// mix\nvec3 vec3_3 = mix(vec3_1, vec3_2, 0.5);"] ∧
      (Graph.diamond.program.map (·.symbol.name)).Nodup ∧ Graph.diamond.program.length = 4 ∧
      ∃ env, Assignment.execute nodeCount (fun _ => none) Graph.diamond.program = some env ∧
        env shader.result.name = some 5 := by
  have horder : Graph.diamond.evaluate = .ok [3, 1, 2, 0] := by cbv
  have hnone : (Graph.diamond.emit SymbolTable.empty.push [3, 1, 2, 0]).failure = none := by cbv
  have hlength : Graph.diamond.program.length = 4 := by cbv
  have hvalue : Graph.diamond.value nodeCount Graph.diamond.nodes.length 0 = some 5 := by cbv
  obtain ⟨shader, hshader⟩ :=
    Graph.exists_shader_of_failure_eq_none { nodeComments := true } horder rfl (by decide) hnone
  have hresult : (Graph.diamond.compile { nodeComments := true }).result = .ok shader := by
    rw [hshader]
  obtain ⟨hstatements, _, hnodup, hruns⟩ :=
    execute_program_eq_value Graph.diamond { nodeComments := true } shader hresult
  obtain ⟨env, root, v, hrun, hroot, hv, henv⟩ := hruns Nat nodeCount
  obtain rfl : 0 = root := Option.some.inj hroot
  obtain rfl : 5 = v := Option.some.inj (hvalue.symm.trans (hv _ (Nat.le_refl _)))
  refine ⟨shader, hresult, ?_, hnodup, hlength, env, hrun, henv⟩
  rw [hstatements]
  cbv

end MaterialGraph
