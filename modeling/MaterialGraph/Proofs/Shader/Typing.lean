import Mathlib
import MaterialGraph.Proofs.Graph.Authoring
import MaterialGraph.Proofs.Kind.Typing
import MaterialGraph.Proofs.Order.Evaluate
import MaterialGraph.Proofs.Shader.Shape

/-!
# Type soundness of shaders

A shader is checked in the context of the code around it.  That context has the standard functions
and the ambient vectors, and none of its names looks like a generated one (`Context.Ambient`).

Main statement: `compile_typed` says that every declaration of a shader has an expression of the
type that it declares, if the literals of the graph have the types that they are declared to have.
The only link between a node and its producers is that the types of sockets and outputs have been
compared; the rest is that every kind keeps its promise (`Kind.hasType_of_generate`).
-/

namespace MaterialGraph

open Expression

namespace Expression.Context

/-- The context after declarations of variables. -/
def declare (Γ : Context) (symbols : List Symbol) : Context where
  names name :=
    match symbols.find? fun s => s.name == name with
    | some s => some s.type.dataType
    | none => Γ.names name
  calls := Γ.calls

variable {Γ : Context} {symbols : List Symbol}

/-- Declarations of generated names take nothing away. -/
lemma Ambient.le_declare (hΓ : Γ.Ambient)
    (hsymbols : ∀ s ∈ symbols, ∃ type number, s.name = SymbolTable.nameOf type number) :
    Γ ≤ Γ.declare symbols := by
  refine ⟨fun name t ht => ?_, fun f ts t ht => ht⟩
  have hnone : (symbols.find? fun s => s.name == name) = none := by
    refine List.find?_eq_none.mpr fun s hs hname => ?_
    obtain ⟨type, number, hs⟩ := hsymbols s hs
    rw [beq_iff_eq] at hname
    rw [← hname, hs, hΓ.fresh] at ht
    cases ht
  simp only [declare, hnone, ht]

/-- A variable that is declared has the type of its declaration. -/
lemma names_declare (hnodup : (symbols.map Symbol.name).Nodup) {s : Symbol} (hs : s ∈ symbols) :
    (Γ.declare symbols).names s.name = some s.type.dataType := by
  have hfind : (symbols.find? fun t => t.name == s.name) = some s := by
    cases hfound : symbols.find? fun t => t.name == s.name with
    | none => exact absurd (List.find?_eq_none.mp hfound s hs) (by simp)
    | some t =>
      have hname : t.name = s.name := by simpa using List.find?_some hfound
      rw [List.inj_on_of_nodup_map hnodup (List.mem_of_find?_eq_some hfound) hs hname]
  simp only [declare, hfind]

end Expression.Context

/-- A generated name is a name. -/
lemma SymbolTable.reads_nameOf (type : ValueType) (number : Nat) :
    Reads .loose (nameOf type number) (.name (nameOf type number)) := by
  have hletters : type.name.toList.all Char.isAlphanum = true := by cases type <;> decide
  have hfirst : type.name.toList.head?.map Char.isAlpha = some true := by cases type <;> decide
  obtain ⟨c, hc, halpha⟩ := Option.map_eq_some_iff.mp hfirst
  obtain ⟨cs, hcs⟩ := List.head?_eq_some_iff.mp hc
  have hchars : (nameOf type number).toList = c :: (cs ++ '_' :: Nat.toDigits 10 number) := by
    rw [toList_nameOf, hcs, List.cons_append]
  have htokens : tokens (nameOf type number) = some [.name (nameOf type number)] := by
    refine tokens_of_name hchars (by simp [halpha]) fun d hd => ?_
    rcases List.mem_append.mp hd with hd | hd
    · have hletter := List.all_eq_true.mp hletters d (by simp [hcs, hd])
      simp [Lexeme.isNameChar, hletter]
    rcases List.mem_cons.mp hd with rfl | hd
    · decide
    · have hdigit : d.isDigit = true := Nat.isDigit_of_mem_toDigits (by decide) (by decide) hd
      simp [Lexeme.isNameChar, Char.isAlphanum, hdigit]
  have htight : Reads .tight (nameOf type number) (.name (nameOf type number)) :=
    ⟨_, htokens, .name _⟩
  exact htight.loose_of_tight

namespace Graph

variable {g : Graph} {ids : List NodeId} {program : List Assignment} {Γ : Context}

/-- Arguments of the types of sockets that are as declared are texts of trees of the declared
types. -/
lemma exists_trees {specs : List SocketSpec} {sockets : List Socket} {arguments : List Argument}
    (hspecs : List.Forall₂ Socket.Conforms specs sockets)
    (harguments : List.Forall₂ (fun (s : Socket) (a : Argument) =>
      ∃ e, Expression.Reads .loose a.text e ∧ Γ.HasType e s.type.dataType) sockets arguments) :
    ∃ trees, List.Forall₂ (Expression.Reads .loose) (arguments.map Argument.text) trees ∧
      List.Forall₂ (fun (s : SocketSpec) e => Γ.HasType e s.type.dataType) specs trees := by
  induction hspecs generalizing arguments with
  | nil =>
    obtain rfl := List.forall₂_nil_left_iff.mp harguments
    exact ⟨[], .nil, .nil⟩
  | cons hspec _ ih =>
    obtain ⟨a, rest, ⟨e, hread, htype⟩, hrest, rfl⟩ := List.forall₂_cons_left_iff.mp harguments
    obtain ⟨trees, hreads, htypes⟩ := ih hrest
    rw [hspec.type] at htype
    exact ⟨e :: trees, .cons hread hreads, .cons htype htypes⟩

/-- The expression of an assignment has the type of the variable, in the context of the variables
before it. -/
lemma Emits.hasType_code (h : g.Emits SymbolTable.empty.push ids program)
    (hconforms : ∀ n ∈ g.nodes, n.Conforms) (hΓ : Γ.Ambient) {i : Nat} {a : Assignment}
    (ha : program[i]? = some a)
    (hliterals : ∀ n, g.nodes[a.symbol.node]? = some n → ∀ s ∈ n.sockets, ∀ l,
      s.binding = some (.literal l) → l.WellTyped Γ) :
    ∃ e, Expression.Reads .tight a.code e ∧
      (Γ.declare ((program.take i).map Assignment.symbol)).HasType e a.symbol.type.dataType := by
  obtain ⟨seen, n, hassigned, -, hlookup⟩ := h.exists_assigned ha
  have hgenerated : ∀ s ∈ (program.take i).map Assignment.symbol,
      ∃ type number, s.name = SymbolTable.nameOf type number := by
    intro s hs
    obtain ⟨b, hb, rfl⟩ := List.mem_map.mp hs
    obtain ⟨number, hname, -⟩ := h.exists_number b (List.mem_of_mem_take hb)
    exact ⟨_, number, hname⟩
  have hnodup : (((program.take i).map Assignment.symbol).map Symbol.name).Nodup := by
    rw [List.map_map]
    exact h.nodup_names.sublist ((List.take_sublist i program).map _)
  have harguments : List.Forall₂ (fun (s : Socket) (a : Argument) =>
      ∃ e, Expression.Reads .loose a.text e ∧
        (Γ.declare ((program.take i).map Assignment.symbol)).HasType e s.type.dataType)
      n.sockets a.arguments := by
    have hresolved := (List.forall₂_and_left _ _).mpr
      ⟨hliterals n hassigned.node, hassigned.arguments⟩
    refine hresolved.imp fun s a hs => ?_
    obtain ⟨hliteral, hresolves⟩ := hs
    cases hresolves with
    | literal hbinding htype =>
      obtain ⟨e, hread, he⟩ := hliteral _ hbinding
      rw [htype] at he
      exact ⟨e, hread, typeOf_mono (hΓ.le_declare hgenerated) e _ he⟩
    | @symbol p producer symbol hbinding hp htype hsymbol =>
      rcases hlookup p symbol hsymbol with hold | ⟨j, b, hlt, hb, rfl, rfl⟩
      · simp at hold
      have hmem : b.symbol ∈ (program.take i).map Assignment.symbol :=
        List.mem_map_of_mem (List.mem_of_getElem? (List.getElem?_take_of_lt hlt ▸ hb))
      obtain ⟨_, m, hm, -, -⟩ := h.exists_assigned hb
      have houtput : b.symbol.type = s.type := by
        rw [hm.symbol, SymbolTable.allocate_symbol, ← htype]
        exact congrArg Node.output (Option.some.inj (hm.node.symm.trans hp))
      obtain ⟨type, number, hname⟩ := hgenerated b.symbol hmem
      refine ⟨.name b.symbol.name, ?_, ?_⟩
      · rw [Argument.text, hname]
        exact SymbolTable.reads_nameOf type number
      · rw [← houtput]
        exact Context.names_declare hnodup hmem
  obtain ⟨trees, hreads, htypes⟩ :=
    exists_trees (hconforms n (List.mem_of_getElem? hassigned.node)) harguments
  obtain ⟨e, hread, he⟩ :=
    n.kind.hasType_of_generate (Γ := Γ.declare _) hΓ.standard hreads htypes hassigned.code
  refine ⟨e, hread, ?_⟩
  rw [hassigned.symbol, SymbolTable.allocate_symbol]
  exact he

/-- Every shader is well typed, if the literals of its nodes are.  The expression of each
declaration has exactly the type that is declared, in the context of the declarations before it,
and after all of them the result has the type of the root's output. -/
theorem compile_typed (g : Graph) (hg : g.Built) (options : Options) (shader : Shader)
    (h : (g.compile options).result = .ok shader) (Γ : Context) (hΓ : Γ.Ambient)
    (hliterals : ∀ id n, g.Reachable id → g.nodes[id]? = some n → ∀ s ∈ n.sockets, ∀ l,
      s.binding = some (.literal l) → l.WellTyped Γ) :
    shader.statements.length = shader.bindings.length ∧
      (∀ i id symbol, shader.bindings[i]? = some (id, symbol) →
        ∃ n code e, g.nodes[id]? = some n ∧
          shader.statements[i]? = some (
            (if options.nodeComments then "// " ++ n.name ++ "\n" else "")
            ++ symbol.type.name ++ " " ++ symbol.name ++ " = " ++ code ++ ";") ∧
          Expression.read code = some e ∧
          (Γ.declare ((shader.bindings.take i).map Prod.snd)).HasType e symbol.type.dataType) ∧
      ∃ root n, g.root = some root ∧ g.nodes[root]? = some n ∧ shader.result.type = n.output ∧
        (Γ.declare (shader.bindings.map Prod.snd)).HasType (.name shader.result.name)
          n.output.dataType := by
  obtain ⟨order, root, a, horder, hemits, hroot, ha, rfl, rfl⟩ := exists_emits_of_compile h
  have hreachable : ∀ b ∈ g.program, g.Reachable b.symbol.node := by
    intro b hb
    rw [← (dependencyOrder_of_evaluate horder).mem_iff, ← hemits.map_node]
    exact List.mem_map_of_mem hb
  refine ⟨by simp [Shader.ofProgram], fun i id symbol hi => ?_, ?_⟩
  · obtain ⟨b, hb, hpair⟩ : ∃ b, g.program[i]? = some b ∧
        (b.symbol.node, b.symbol) = (id, symbol) := by
      simpa [Shader.ofProgram, List.getElem?_map] using hi
    obtain ⟨rfl, rfl⟩ := Prod.mk.inj hpair
    obtain ⟨_, n, hassigned, -, -⟩ := hemits.exists_assigned hb
    obtain ⟨e, hread, he⟩ := hemits.hasType_code hg.conforms hΓ hb fun n hn =>
      hliterals _ n (hreachable b (List.mem_of_getElem? hb)) hn
    refine ⟨n, b.code, e, hassigned.node, ?_, ?_, ?_⟩
    · simp [Shader.ofProgram, hb, Assignment.statement, hassigned.label]
    · exact read_eq_some_iff.mpr hread.loose_of_tight
    · simpa [Shader.ofProgram, ← List.map_take, Function.comp_def] using he
  · obtain ⟨i, hi⟩ := List.mem_iff_getElem?.mp ha
    obtain ⟨_, n, hassigned, -, -⟩ := hemits.exists_assigned hi
    have htype : a.symbol.type = n.output := by
      rw [hassigned.symbol, SymbolTable.allocate_symbol]
    refine ⟨a.symbol.node, n, hroot, hassigned.node, htype, ?_⟩
    rw [← htype]
    refine Context.names_declare ?_ ?_
    · simpa [Shader.ofProgram, Function.comp_def] using hemits.nodup_names
    · simpa [Shader.ofProgram, Function.comp_def] using ⟨a, ha, rfl⟩

/-- Curves on a lit surface: a texture that the surrounding code has, and a colour that is
calculated from whole numbers. -/
def toned : Graph :=
  Graph.empty.edited
    [.add "out" .materialOutput [.connect "Surface" 1],
      .add "curves" .rgbCurves [.setValue "Curve" ⟨.sampler1D, "ramp"⟩, .connect "Color" 2],
      .add "lit" .diffuseShader [.setValue "Color" ⟨.vec3, "vec3(1, 0, 0) * 0.5"⟩],
      .setRoot 0]

/-- The code around a shader that reads one texture. -/
def host : Context where
  names name := [("surface_normal", .vec3), ("light_direction", .vec3),
    ("ramp", .sampler1D)].lookup name
  calls := standard

/-- The host knows what every shader may use. -/
lemma host_ambient : host.Ambient where
  normal := rfl
  direction := rfl
  standard := fun _ _ _ h => h
  fresh := by
    intro type number
    have hstem (stem rest : List Char) (hstem : type.name.toList ≠ stem) :
        (SymbolTable.nameOf type number).toList ≠ stem ++ '_' :: rest := by
      rw [SymbolTable.toList_nameOf, Ne, List.append_cons_inj_of_notMem
        (SymbolTable.underscore_notMem_name type) Nat.underscore_not_in_toDigits]
      exact fun h => hstem h.1
    refine List.lookup_eq_none_iff.mpr ?_
    simp only [List.forall_mem_cons, bne_iff_ne]
    refine ⟨fun h => ?_, fun h => ?_, fun h => ?_, by simp⟩
    · exact hstem "surface".toList "normal".toList (by cases type <;> decide) (by rw [h]; rfl)
    · exact hstem "light".toList "direction".toList (by cases type <;> decide) (by rw [h]; rfl)
    · have hmem : '_' ∈ (SymbolTable.nameOf type number).toList := by
        simp [SymbolTable.toList_nameOf]
      rw [h] at hmem
      exact absurd hmem (by decide)

/-- The values on the sockets of the example are well typed. -/
lemma toned_wellTyped {n : Node} (hn : n ∈ toned.nodes) {s : Socket} (hs : s ∈ n.sockets)
    {l : Literal} (hl : s.binding = some (.literal l)) : l.WellTyped host := by
  have hcurve : (⟨.sampler1D, "ramp"⟩ : Literal).WellTyped host :=
    ⟨.name "ramp", read_eq_some_iff.mp rfl, rfl⟩
  have hcolor : (⟨.vec3, "vec3(1, 0, 0) * 0.5"⟩ : Literal).WellTyped host := by
    have hnumbers : List.Forall₂ host.HasType [.number "1", .number "0", .number "0"]
        [.vector .int 1, .vector .int 1, .vector .int 1] := .cons rfl (.cons rfl (.cons rfl .nil))
    exact ⟨.infixed .multiply (.call "vec3" _) (.number "0.5"), read_eq_some_iff.mp rfl,
      .infixed (.call host_ambient.standard hnumbers rfl) Kind.hasType_half rfl⟩
  have hbindings : ∀ n ∈ toned.nodes, ∀ s ∈ n.sockets, s.binding ∈
      n.kind.sockets.map (fun spec => spec.default.map Binding.literal) ++
        [some (.connection 1), some (.connection 2), some (.literal ⟨.sampler1D, "ramp"⟩),
          some (.literal ⟨.vec3, "vec3(1, 0, 0) * 0.5"⟩)] := by
    decide
  have hmem := hbindings n hn s hs
  simp only [hl, List.mem_append, List.mem_map, Option.map_eq_some_iff, Binding.literal.injEq,
    exists_eq_right, List.mem_cons, Option.some.injEq, reduceCtorEq, List.not_mem_nil, or_false,
    false_or] at hmem
  rcases hmem with ⟨spec, hspec, hdefault⟩ | rfl | rfl
  · exact Kind.default_wellTyped host_ambient n.kind spec hspec l hdefault
  · exact hcurve
  · exact hcolor

/-- All declarations of the shader are well typed; that of the curves is the second one. -/
theorem compile_typed_toned :
    toned.Built ∧ host.Ambient ∧ ∃ shader, (toned.compile {}).result = .ok shader ∧
      shader.statements.length = 3 ∧
      (∃ symbol code e, shader.bindings[1]? = some (1, symbol) ∧ Expression.read code = some e ∧
        (host.declare ((shader.bindings.take 1).map Prod.snd)).HasType e symbol.type.dataType) ∧
      shader.result.type = .vec4 := by
  have hbuilt : toned.Built := ⟨_, rfl⟩
  have horder : toned.evaluate = .ok [2, 1, 0] := by cbv
  have hnone : (toned.emit SymbolTable.empty.push [2, 1, 0]).failure = none := by cbv
  obtain ⟨shader, hshader⟩ :=
    exists_shader_of_failure_eq_none {} horder rfl (by decide) hnone
  have hresult : (toned.compile {}).result = .ok shader := by rw [hshader]
  obtain ⟨hlength, hstatements, root, n, hroot, hn, htype, -⟩ :=
    compile_typed toned hbuilt {} shader hresult host host_ambient
      fun _ _ _ hn _ hs _ hl => toned_wellTyped (List.mem_of_getElem? hn) hs hl
  have hids : shader.bindings.map Prod.fst = [2, 1, 0] := by
    obtain ⟨order, _, _, hevaluate, hemits, -, -, -, rfl⟩ := exists_emits_of_compile hresult
    rw [horder, Except.ok.injEq] at hevaluate
    obtain rfl := hevaluate
    simpa [Shader.ofProgram, Function.comp_def] using hemits.map_node
  have hcount : shader.bindings.length = 3 := by
    rw [← List.length_map Prod.fst, hids]
    rfl
  have hsecond : (shader.bindings[1]?).map Prod.fst = some 1 := by
    rw [← List.getElem?_map, hids]
    rfl
  obtain ⟨⟨id, symbol⟩, hsymbol, rfl⟩ := Option.map_eq_some_iff.mp hsecond
  obtain ⟨_, code, e, -, -, hread, he⟩ := hstatements 1 _ symbol hsymbol
  obtain rfl : 0 = root := Option.some.inj hroot
  have houtput : n.output = .vec4 := by
    obtain rfl : _ = n := Option.some.inj hn
    rfl
  exact ⟨hbuilt, host_ambient, shader, hresult, hlength.trans hcount,
    ⟨symbol, code, e, hsymbol, hread, he⟩, htype.trans houtput⟩

end Graph

end MaterialGraph
