import Mathlib
import MaterialGraph.Proofs.Order.Evaluate
import MaterialGraph.Proofs.Scope.Within
import MaterialGraph.Proofs.Shader.Emission

/-!
# Bodies in a host's scopes

A host that puts a compiled body into a program of its own declares the variables of the body in a
table of its own, in order (`Shader.declarations`), and then opens scopes and declares variables as
it likes.  The generator has gone through the same allocations, so the host gets the variables of
the body (`Emits.allocated_declared`).  As long as the host does not close the scope in which it
declared them, all that it does takes place inside that scope.

Main statement: `Graph.compile_continued_by_host`.
-/

namespace MaterialGraph

/-- The actions that declare the variables of a shader again, in order. -/
def Shader.declarations (shader : Shader) : List SymbolTable.Action :=
  SymbolTable.declared (shader.bindings.map fun b => (b.1, b.2.type))

namespace Graph

/-- Declaring the nodes of a program again gives the variables of the program. -/
lemma Emits.allocated_declared {g : Graph} {table : SymbolTable} {ids : List NodeId}
    {program : List Assignment} (h : g.Emits table ids program) :
    table.allocated (SymbolTable.declared
      (program.map fun a => (a.symbol.node, a.symbol.type))) = program.map Assignment.symbol := by
  induction h with
  | nil => rfl
  | @cons table id ids n a program hassigned _ ih =>
    have hnode : a.symbol.node = id := by rw [hassigned.symbol, SymbolTable.allocate_symbol]
    have htype : a.symbol.type = n.output := by rw [hassigned.symbol, SymbolTable.allocate_symbol]
    calc table.allocated (SymbolTable.declared
          ((a :: program).map fun a => (a.symbol.node, a.symbol.type)))
        = (table.allocate a.symbol.node a.symbol.type).1 ::
            (table.allocate a.symbol.node a.symbol.type).2.allocated (SymbolTable.declared
              (program.map fun a => (a.symbol.node, a.symbol.type))) := rfl
      _ = a.symbol :: program.map Assignment.symbol := by
            rw [hnode, htype, ih, ← hassigned.symbol]

/-- The variables that a host gets for the nodes of a shader are those of the shader. -/
lemma allocated_declarations {g : Graph} {options : Options} {shader : Shader}
    (h : (g.compile options).result = .ok shader) :
    SymbolTable.empty.push.allocated shader.declarations = shader.bindings.map Prod.snd := by
  obtain ⟨_, _, a, _, hemits, -, -, -, rfl⟩ := exists_emits_of_compile h
  have hallocated := hemits.allocated_declared
  simpa [Shader.declarations, Shader.ofProgram, Function.comp_def] using hallocated

/-- A host can go on where a compiled body ends.  Declaring the nodes of the body, with their types
and in order, in a scope of the host gives the variables of the body, and the next variable of the
host has for its number the count of variables of its type in the body.  Whatever the host does
later without closing that scope, the names it gets are not those of the body, and the names of the
body lead to the variables of the body. -/
theorem compile_continued_by_host (g : Graph) (options : Options) (shader : Shader)
    (h : (g.compile options).result = .ok shader) :
    let host := SymbolTable.empty.push.run shader.declarations
    SymbolTable.empty.push.allocated shader.declarations = shader.bindings.map Prod.snd ∧
      host.depth = 1 ∧
      (∀ node type, (host.allocate node type).1.name =
        type.name ++ "_" ++ Nat.repr (shader.bindings.countP fun b => b.2.type = type)) ∧
      ∀ later m, SymbolTable.level 0 later = some m →
        (host.run later).depth = m + 1 ∧
          (∀ s ∈ host.allocated later, ∀ b ∈ shader.bindings, s.name ≠ b.2.name) ∧
          ∀ b ∈ shader.bindings, (host.run later).lookup b.2.name = some b.2 := by
  intro host
  have hallocated := allocated_declarations h
  have hvisible : host.visible = (shader.bindings.map Prod.snd).reverse := by
    rw [← hallocated, ← List.append_nil (List.reverse _)]
    exact SymbolTable.empty.push.visible_run_declared _
  have hsound : host.Sound := SymbolTable.sound_empty.push.run shader.declarations
  have hmem : ∀ b ∈ shader.bindings, b.2 ∈ host.visible := by
    intro b hb
    rw [hvisible, List.mem_reverse]
    exact List.mem_map_of_mem hb
  have hdepth : host.depth = 1 := by
    have hwithin := (SymbolTable.Within.refl SymbolTable.empty.push).run Nat.one_pos
      (SymbolTable.level_declared (shader.bindings.map fun b => (b.1, b.2.type)) 0)
    exact hwithin.depth_eq
  refine ⟨hallocated, hdepth, fun node type => ?_, fun later m hlevel => ?_⟩
  · rw [hsound.allocate_symbol_name, hvisible, List.countP_reverse, List.countP_map]
    rfl
  · have hopen : 0 < host.depth := by rw [hdepth]; exact Nat.one_pos
    have hwithin := (SymbolTable.Within.refl host).run hopen hlevel
    refine ⟨by rw [hwithin.depth_eq, hdepth, Nat.add_comm], fun s hs b hb hname => ?_,
      fun b hb => ?_⟩
    · have hfresh := (SymbolTable.Within.refl host).name_notMem_of_mem_allocated hopen hsound
        hlevel hs
      exact hfresh (hname ▸ List.mem_map_of_mem (hmem b hb))
    · rw [(hsound.run later).lookup_eq_some_iff]
      exact ⟨hwithin.visible_suffix.subset (hmem b hb), rfl⟩

/-- The host of the diamond declares variables for its nodes again, first in a scope that it closes
and then in the scope of the body.  The number that was free is used twice, and the first variable
of the body is still found. -/
theorem compile_continued_by_host_diamond :
    let later : List SymbolTable.Action :=
      [.push, .allocate 3 .vec3, .allocate 3 .float, .pop, .allocate 0 .vec3, .push]
    ∃ shader, (diamond.compile {}).result = .ok shader ∧
      SymbolTable.level 0 later = some 1 ∧
      (SymbolTable.empty.push.run shader.declarations).allocated later =
        [⟨.vec3, "vec3_4", 3⟩, ⟨.float, "float_0", 3⟩, ⟨.vec3, "vec3_4", 0⟩] ∧
      (∀ b ∈ shader.bindings, "vec3_4" ≠ b.2.name) ∧
      ((SymbolTable.empty.push.run shader.declarations).run later).depth = 2 ∧
      ((SymbolTable.empty.push.run shader.declarations).run later).lookup "vec3_0" =
        some ⟨.vec3, "vec3_0", 3⟩ := by
  intro later
  have horder : diamond.evaluate = .ok [3, 1, 2, 0] := by cbv
  have hnone : (diamond.emit SymbolTable.empty.push [3, 1, 2, 0]).failure = none := by cbv
  obtain ⟨shader, hshader⟩ := exists_shader_of_failure_eq_none {} horder rfl (by decide) hnone
  have hresult : (diamond.compile {}).result = .ok shader := by rw [hshader]
  have hbindings : shader.bindings = [(3, ⟨.vec3, "vec3_0", 3⟩), (1, ⟨.vec3, "vec3_1", 1⟩),
      (2, ⟨.vec3, "vec3_2", 2⟩), (0, ⟨.vec3, "vec3_3", 0⟩)] := by
    obtain ⟨_, _, a, _, _, -, -, -, rfl⟩ := exists_emits_of_compile hresult
    show diamond.program.map (fun a => (a.symbol.node, a.symbol)) = _
    cbv
  have hallocated : (SymbolTable.empty.push.run shader.declarations).allocated later =
      [⟨.vec3, "vec3_4", 3⟩, ⟨.float, "float_0", 3⟩, ⟨.vec3, "vec3_4", 0⟩] := by
    unfold Shader.declarations
    rw [hbindings]
    cbv
  obtain ⟨-, -, -, hlater⟩ := compile_continued_by_host diamond {} shader hresult
  obtain ⟨hdepth, hnames, hlookup⟩ := hlater later 1 rfl
  refine ⟨shader, hresult, rfl, hallocated, ?_, hdepth, ?_⟩
  · exact hnames ⟨.vec3, "vec3_4", 3⟩ (by rw [hallocated]; exact List.mem_cons_self)
  · exact hlookup (3, ⟨.vec3, "vec3_0", 3⟩) (by rw [hbindings]; exact List.mem_cons_self)

end Graph

end MaterialGraph
