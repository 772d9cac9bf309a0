import Mathlib
import MaterialGraph.Proofs.Order.Evaluate
import MaterialGraph.Proofs.Shader.Emission

/-!
# The shape of a shader

What a shader consists of, place by place.  The variable at a place is the one of the node that the
order of generation has there; its number says how many variables of its type come before it.  Its
declaration applies the kind of the node to the inputs of the sockets, and every input that is a
variable is declared before.

The program is made with a table of variables that grows along with it.  `Emits.exists_assigned`
says what the table is at each place in terms of the variables before that place alone, so that the
table does not occur in the main statement, `compile_shape`.
-/

namespace MaterialGraph

/-- The input of a socket at a place of a shader: the text of its literal, or the variable that its
producer has at a place before. -/
inductive Socket.Reads (bindings : List (NodeId × Symbol)) (i : Nat) (s : Socket) : String → Prop
    where
  | literal {value : Literal} (hbinding : s.binding = some (.literal value)) :
      Reads bindings i s value.text
  | symbol {p : NodeId} {j : Nat} {symbol : Symbol}
      (hbinding : s.binding = some (.connection p)) (hlt : j < i)
      (hj : bindings[j]? = some (p, symbol)) : Reads bindings i s symbol.name

/-- A place of a shader holds the variable and the declaration of a node. -/
structure Shader.Declares (shader : Shader) (nodeComments : Bool) (i : Nat) (id : NodeId)
    (n : Node) (symbol : Symbol) : Prop where
  node : symbol.node = id
  type : symbol.type = n.output
  /-- The number in the name counts the variables of the type before this one. -/
  name : symbol.name = n.output.name ++ "_"
    ++ Nat.repr ((shader.bindings.take i).countP fun b => b.2.type = n.output)
  statement : ∃ inputs code, List.Forall₂ (Socket.Reads shader.bindings i) n.sockets inputs ∧
    n.kind.generate inputs = .ok code ∧
    shader.statements[i]? = some ((if nodeComments then "// " ++ n.name ++ "\n" else "")
      ++ n.output.name ++ " " ++ symbol.name ++ " = " ++ code ++ ";")

namespace Graph

variable {g : Graph} {table : SymbolTable} {ids : List NodeId} {program : List Assignment}

/-- The assignment at a place is made with a table that knows, beyond the variables it started
with, just those of the places before. -/
lemma Emits.exists_assigned (h : g.Emits table ids program) {i : Nat} {a : Assignment}
    (hi : program[i]? = some a) :
    ∃ seen n, g.Assigned seen a.symbol.node n a ∧
      (∀ t, seen.counters.get t =
        table.counters.get t + (program.take i).countP fun b => b.symbol.type = t) ∧
      ∀ p symbol, seen.lookupNode p = some symbol → table.lookupNode p = some symbol ∨
        ∃ j b, j < i ∧ program[j]? = some b ∧ b.symbol = symbol ∧ symbol.node = p := by
  induction h generalizing i with
  | nil => simp at hi
  | @cons table id ids n first program hassigned _ ih =>
    have hfirst : first.symbol = ⟨n.output, SymbolTable.nameOf n.output
        (table.counters.get n.output), id⟩ := by
      rw [hassigned.symbol, SymbolTable.allocate_symbol]
    cases i with
    | zero =>
      obtain rfl : first = a := by simpa using hi
      refine ⟨table, n, ?_, by simp, fun p symbol hp => Or.inl hp⟩
      rw [hfirst]
      exact hassigned
    | succ i =>
      obtain ⟨seen, m, hseen, hcount, hlookup⟩ := ih (by simpa using hi)
      refine ⟨seen, m, hseen, fun t => ?_, fun p symbol hp => ?_⟩
      · have htype : first.symbol.type = n.output := by rw [hfirst]
        rw [hcount t, SymbolTable.counters_allocate, Counters.get_bump, List.take_succ_cons,
          List.countP_cons, htype]
        simp only [decide_eq_true_eq, eq_comm (a := n.output)]
        omega
      · rcases hlookup p symbol hp with hold | ⟨j, b, hj, hb, hsymbol, hnode⟩
        · rw [SymbolTable.lookupNode_allocate] at hold
          by_cases hid : id = p
          · rw [if_pos hid, ← hassigned.symbol] at hold
            obtain rfl := Option.some.inj hold
            exact Or.inr ⟨0, first, Nat.succ_pos i, rfl, rfl, by rw [hfirst, hid]⟩
          · rw [if_neg hid] at hold
            exact Or.inl hold
        · exact Or.inr ⟨j + 1, b, Nat.succ_lt_succ hj, by simpa using hb, hsymbol, hnode⟩

/-- An argument that stands for a socket is the input of the socket, if the variables that are
visible are those of earlier places. -/
lemma Resolves.reads {s : Socket} {a : Argument} (h : g.Resolves table s a)
    {bindings : List (NodeId × Symbol)} {i : Nat}
    (hvisible : ∀ p symbol, table.lookupNode p = some symbol →
      ∃ j, j < i ∧ bindings[j]? = some (p, symbol)) : s.Reads bindings i a.text := by
  cases h with
  | literal hbinding _ => exact Socket.Reads.literal hbinding
  | symbol hbinding _ _ hsymbol =>
    obtain ⟨j, hlt, hj⟩ := hvisible _ _ hsymbol
    exact Socket.Reads.symbol hbinding hlt hj

/-- The shader of a program that stands for nodes declares their variables one by one. -/
lemma Emits.declares (h : g.Emits SymbolTable.empty.push ids program) (options : Options)
    (result : Symbol) {i : Nat} {id : NodeId} {symbol : Symbol}
    (hi : (Shader.ofProgram options program result).bindings[i]? = some (id, symbol)) :
    ∃ n, g.nodes[id]? = some n ∧
      (Shader.ofProgram options program result).Declares options.nodeComments i id n symbol := by
  obtain ⟨a, ha, hpair⟩ : ∃ a, program[i]? = some a ∧ (a.symbol.node, a.symbol) = (id, symbol) := by
    simpa [Shader.ofProgram, List.getElem?_map] using hi
  obtain ⟨rfl, rfl⟩ := Prod.mk.inj hpair
  obtain ⟨seen, n, hassigned, hcount, hlookup⟩ := h.exists_assigned ha
  have hsymbol : a.symbol = ⟨n.output, SymbolTable.nameOf n.output
      (seen.counters.get n.output), a.symbol.node⟩ := by
    conv_lhs => rw [hassigned.symbol, SymbolTable.allocate_symbol]
  have htype : a.symbol.type = n.output := by rw [hsymbol]
  have hnumber : seen.counters.get n.output =
      ((Shader.ofProgram options program result).bindings.take i).countP
        fun b => b.2.type = n.output := by
    rw [hcount n.output, SymbolTable.get_counters_push_empty, Nat.zero_add]
    simp [Shader.ofProgram, ← List.map_take, List.countP_map, Function.comp_def]
  have hvisible : ∀ p s, seen.lookupNode p = some s →
      ∃ j, j < i ∧ (Shader.ofProgram options program result).bindings[j]? = some (p, s) := by
    intro p s hs
    rcases hlookup p s hs with hold | ⟨j, b, hlt, hb, rfl, rfl⟩
    · simp at hold
    · exact ⟨j, hlt, by simp [Shader.ofProgram, hb]⟩
  refine ⟨n, hassigned.node, rfl, htype, ?_, a.arguments.map Argument.text, a.code, ?_,
    hassigned.code, ?_⟩
  · conv_lhs => rw [hsymbol]
    rw [hnumber]
    rfl
  · rw [List.forall₂_map_right_iff]
    exact hassigned.arguments.imp fun s argument hresolves => hresolves.reads hvisible
  · simp [Shader.ofProgram, ha, Assignment.statement, htype, hassigned.label]

/-- A statement of a compiled shader declares the variable of a node that the output depends on. -/
lemma exists_declares_of_compile {options : Options} {shader : Shader}
    (h : (g.compile options).result = .ok shader) {i : Nat} {statement : String}
    (hi : shader.statements[i]? = some statement) :
    ∃ id n symbol, g.Reachable id ∧ g.nodes[id]? = some n ∧
      shader.bindings[i]? = some (id, symbol) ∧
      shader.Declares options.nodeComments i id n symbol := by
  obtain ⟨order, root, a, horder, hemits, -, -, -, rfl⟩ := exists_emits_of_compile h
  obtain ⟨assignment, hassignment, -⟩ := Option.map_eq_some_iff.mp (List.getElem?_map ▸ hi)
  have hbinding : (Shader.ofProgram options g.program a.symbol).bindings[i]? =
      some (assignment.symbol.node, assignment.symbol) := by
    simp [Shader.ofProgram, hassignment]
  obtain ⟨n, hn, hdeclares⟩ := hemits.declares options a.symbol hbinding
  have hreachable : g.Reachable assignment.symbol.node := by
    rw [← (dependencyOrder_of_evaluate horder).mem_iff, ← hemits.map_node]
    exact List.mem_map_of_mem (List.mem_of_getElem? hassignment)
  exact ⟨_, n, _, hreachable, hn, hbinding, hdeclares⟩

/-- The variables of a compiled shader have generated names. -/
lemma exists_nameOf_of_compile {options : Options} {shader : Shader}
    (h : (g.compile options).result = .ok shader) {b : NodeId × Symbol} (hb : b ∈ shader.bindings) :
    ∃ number, b.2.name = SymbolTable.nameOf b.2.type number := by
  obtain ⟨_, _, a, _, hemits, -, -, -, rfl⟩ := exists_emits_of_compile h
  obtain ⟨assignment, hassignment, rfl⟩ := List.mem_map.mp hb
  obtain ⟨number, hname, -⟩ := hemits.exists_number assignment hassignment
  exact ⟨number, hname⟩

/-- Looking up in a list in which no key comes twice finds just what is in the list. -/
lemma lookup_eq_some_iff_mem {bindings : List (NodeId × Symbol)}
    (hkeys : (bindings.map Prod.fst).Nodup) {id : NodeId} {symbol : Symbol} :
    bindings.lookup id = some symbol ↔ (id, symbol) ∈ bindings := by
  rw [List.lookup_eq_some_iff]
  constructor
  · rintro ⟨before, after, rfl, -⟩
    simp
  · intro hmem
    obtain ⟨before, after, rfl⟩ := List.append_of_mem hmem
    refine ⟨before, after, rfl, fun p hp => ?_⟩
    rw [List.map_append, List.map_cons, List.nodup_append] at hkeys
    have hne := hkeys.2.2 p.1 (List.mem_map_of_mem hp) id List.mem_cons_self
    simpa using Ne.symm hne

/-- The variable of the root is the last one of a program that stands for an order. -/
lemma Emits.getLast?_of_node (h : g.Emits table ids program) (hnodup : ids.Nodup)
    {a : Assignment} (ha : a ∈ program) (hlast : ids.getLast? = some a.symbol.node) :
    program.getLast? = some a := by
  rw [← h.map_node] at hnodup hlast
  obtain ⟨b, hb, hnode⟩ : ∃ b, program.getLast? = some b ∧ b.symbol.node = a.symbol.node := by
    simpa [List.getLast?_map] using hlast
  rw [hb, List.inj_on_of_nodup_map hnodup (List.mem_of_getLast? hb) ha hnode]

/-- Everything a shader consists of.  Its variables belong to the nodes of the order of generation,
one by one, and have different names.  There are as many declarations, and each of them declares
the variable of its node (`Shader.Declares`).  The last variable is the result.  Just the nodes that
the output depends on have a variable. -/
theorem compile_shape (g : Graph) (options : Options) (shader : Shader)
    (h : (g.compile options).result = .ok shader) :
    g.evaluate = .ok (shader.bindings.map Prod.fst) ∧
      shader.statements.length = shader.bindings.length ∧
      (∀ i id symbol, shader.bindings[i]? = some (id, symbol) →
        ∃ n, g.nodes[id]? = some n ∧ shader.Declares options.nodeComments i id n symbol) ∧
      (shader.bindings.map (·.2.name)).Nodup ∧
      (∃ root, g.root = some root ∧ shader.bindings.getLast? = some (root, shader.result)) ∧
      (∀ id symbol, shader.symbolOf? id = some symbol ↔ (id, symbol) ∈ shader.bindings) ∧
      ∀ id, (shader.symbolOf? id).isSome ↔ g.Reachable id := by
  obtain ⟨order, root, a, horder, hemits, hroot, ha, hnode, rfl⟩ := exists_emits_of_compile h
  have hdependency := dependencyOrder_of_evaluate horder
  have hnodes : (Shader.ofProgram options g.program a.symbol).bindings.map Prod.fst = order := by
    rw [← hemits.map_node]
    simp [Shader.ofProgram]
  have hlast : g.program.getLast? = some a := by
    refine hemits.getLast?_of_node hdependency.nodup ha ?_
    rw [hdependency.last, hroot, hnode]
  have hsymbolOf : ∀ id symbol, (Shader.ofProgram options g.program a.symbol).symbolOf? id =
      some symbol ↔ (id, symbol) ∈ (Shader.ofProgram options g.program a.symbol).bindings :=
    fun id symbol => lookup_eq_some_iff_mem (by rw [hnodes]; exact hdependency.nodup)
  refine ⟨by rw [horder, hnodes], by simp [Shader.ofProgram], ?_, ?_, ?_, hsymbolOf, ?_⟩
  · exact fun i id symbol hi => hemits.declares options a.symbol hi
  · simpa [Shader.ofProgram, Function.comp_def] using hemits.nodup_names
  · exact ⟨root, hroot, by simp [Shader.ofProgram, List.getLast?_map, hlast, hnode]⟩
  · intro id
    rw [← hdependency.mem_iff, ← hnodes, List.mem_map, Option.isSome_iff_exists]
    constructor
    · rintro ⟨symbol, hsymbol⟩
      exact ⟨_, (hsymbolOf id symbol).mp hsymbol, rfl⟩
    · rintro ⟨⟨_, symbol⟩, hmem, rfl⟩
      exact ⟨symbol, (hsymbolOf _ symbol).mpr hmem⟩

/-- The shader of the diamond declares four variables, the third of them for a node that reads the
first, and none for the node that nothing reads. -/
theorem compile_shape_diamond :
    ∃ shader, (diamond.compile { nodeComments := true }).result = .ok shader ∧
      shader.bindings.map Prod.fst = [3, 1, 2, 0] ∧ shader.statements.length = 4 ∧
      (∃ symbol, shader.Declares true 2 2
        ((Node.new "right" (.gamma .linearToSRGB)).bind "Color" (some (.connection 3))) symbol) ∧
      shader.bindings.getLast? = some (0, shader.result) ∧ shader.symbolOf? 4 = none := by
  have horder : diamond.evaluate = .ok [3, 1, 2, 0] := by cbv
  have hnone : (diamond.emit SymbolTable.empty.push [3, 1, 2, 0]).failure = none := by cbv
  obtain ⟨shader, hshader⟩ :=
    exists_shader_of_failure_eq_none { nodeComments := true } horder rfl (by decide) hnone
  have hresult : (diamond.compile { nodeComments := true }).result = .ok shader := by rw [hshader]
  obtain ⟨hevaluate, hlength, hdeclares, _, ⟨root, hroot, hlast⟩, hsymbolOf, _⟩ :=
    compile_shape diamond { nodeComments := true } shader hresult
  have hnodes : shader.bindings.map Prod.fst = [3, 1, 2, 0] := by
    rw [horder] at hevaluate
    exact (Except.ok.inj hevaluate).symm
  have hcount : shader.bindings.length = 4 := by rw [← List.length_map Prod.fst, hnodes]; rfl
  obtain rfl : 0 = root := Option.some.inj hroot
  refine ⟨shader, hresult, hnodes, hlength.trans hcount, ?_, hlast, ?_⟩
  · have hthird : (shader.bindings[2]?).map Prod.fst = some 2 := by
      rw [← List.getElem?_map, hnodes]
      rfl
    obtain ⟨⟨_, symbol⟩, hbinding, rfl⟩ := Option.map_eq_some_iff.mp hthird
    obtain ⟨n, hn, hn'⟩ := hdeclares 2 _ symbol hbinding
    obtain rfl := Option.some.inj hn
    exact ⟨symbol, hn'⟩
  · cases hunused : shader.symbolOf? 4 with
    | none => rfl
    | some symbol =>
      have hmem : 4 ∈ shader.bindings.map Prod.fst :=
        List.mem_map.mpr ⟨_, (hsymbolOf 4 symbol).mp hunused, rfl⟩
      rw [hnodes] at hmem
      exact absurd hmem (by decide)

end Graph

end MaterialGraph
