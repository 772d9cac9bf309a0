import Mathlib
import MaterialGraph.Proofs.Formula.Brackets
import MaterialGraph.Proofs.Shader.Wrapping

/-!
# Brackets in shaders

If every bracket that is opened in a literal of a graph is closed there, all brackets of the shader
are closed where they should be.  The names of variables have no brackets, so the inputs of a node
are balanced (`Socket.Reads.balanced`), and so is the expression that is generated for it; moreover,
that expression can stand next to an operator as it is (`Shader.Declares.exists_solid`).
-/

namespace MaterialGraph

open Text

/-- Names of variables have no brackets. -/
lemma SymbolTable.plain_nameOf (type : ValueType) (number : ℕ) :
    Plain (nameOf type number).toList := by
  have hnone : (brackets.all fun c => !(c.isAlphanum || c == '_')) = true := by decide
  intro c hc
  have hc' := List.all_eq_true.mp hnone c hc
  exact notMem_nameOf type number (by simpa using hc')

/-- The input of a socket is balanced if the literals are. -/
lemma Socket.Reads.balanced {bindings : List (NodeId × Symbol)} {i : ℕ} {s : Socket}
    {input : String} (h : s.Reads bindings i input)
    (hliterals : ∀ l, s.binding = some (.literal l) → Balanced l.text.toList)
    (hsymbols : ∀ b ∈ bindings, Plain b.2.name.toList) : Balanced input.toList := by
  cases h with
  | literal hbinding => exact hliterals _ hbinding
  | symbol _ _ hj => exact (hsymbols _ (List.mem_of_getElem? hj)).balanced

/-- The defaults of sockets are balanced. -/
lemma Kind.balanced_default (k : Kind) {spec : SocketSpec} (hspec : spec ∈ k.sockets)
    {l : Literal} (hl : spec.default = some l) : Balanced l.text.toList := by
  have hdefaults : (k.sockets.all fun spec =>
      spec.default.all fun l => Balanced l.text.toList) = true := by
    cases k with
    | gamma m | lightFalloff m | separateColor m | math m | vectorMath m | mix m | clamp m =>
      cases m <;> decide
    | _ => decide
  simpa [hl] using List.all_eq_true.mp hdefaults spec hspec

/-- A declaration assigns an expression of words and parentheses. -/
lemma Shader.Declares.exists_solid {shader : Shader} {nodeComments : Bool} {i : ℕ} {id : NodeId}
    {n : Node} {symbol : Symbol} (h : shader.Declares nodeComments i id n symbol)
    (hsymbols : ∀ b ∈ shader.bindings, Plain b.2.name.toList)
    (hliterals : ∀ s ∈ n.sockets, ∀ l, s.binding = some (.literal l) → Balanced l.text.toList) :
    ∃ code, shader.statements[i]? = some ((if nodeComments then "// " ++ n.name ++ "\n" else "")
      ++ n.output.name ++ " " ++ symbol.name ++ " = " ++ code ++ ";") ∧ Solid code.toList := by
  obtain ⟨inputs, code, hreads, hcode, hstatement⟩ := h.statement
  refine ⟨code, hstatement, Kind.solid_generate hcode fun input hinput => ?_⟩
  obtain ⟨j, hj, rfl⟩ := List.getElem_of_mem hinput
  have hsocket : j < n.sockets.length := by rwa [hreads.length_eq]
  have hread : (n.sockets[j]).Reads shader.bindings i inputs[j] := hreads.get hsocket hj
  exact hread.balanced (hliterals _ (List.getElem_mem hsocket)) hsymbols

namespace Graph

variable {g : Graph} {options : Options} {shader : Shader}

/-- The literals of the nodes that the output depends on are balanced. -/
def LiteralsBalanced (g : Graph) : Prop :=
  ∀ id n, g.Reachable id → g.nodes[id]? = some n → ∀ s ∈ n.sockets, ∀ l,
    s.binding = some (.literal l) → Balanced l.text.toList

/-- What a compiled shader assigns is made of words and parentheses. -/
lemma LiteralsBalanced.exists_solid (hg : g.LiteralsBalanced)
    (h : (g.compile options).result = .ok shader) {i : ℕ} {statement : String}
    (hi : shader.statements[i]? = some statement) :
    ∃ (id : NodeId) (n : Node) (symbol : Symbol) (code : String),
      g.nodes[id]? = some n ∧ shader.bindings[i]? = some (id, symbol) ∧
      statement = (if options.nodeComments then "// " ++ n.name ++ "\n" else "") ++ n.output.name
        ++ " " ++ symbol.name ++ " = " ++ code ++ ";" ∧ Solid code.toList := by
  have hsymbols : ∀ b ∈ shader.bindings, Plain b.2.name.toList := by
    intro b hb
    obtain ⟨number, hname⟩ := exists_nameOf_of_compile h hb
    rw [hname]
    exact SymbolTable.plain_nameOf _ number
  obtain ⟨id, n, symbol, hreachable, hn, hbinding, hdeclares⟩ := exists_declares_of_compile h hi
  obtain ⟨code, hstatement, hsolid⟩ :=
    hdeclares.exists_solid hsymbols (hg id n hreachable hn)
  rw [hi] at hstatement
  exact ⟨id, n, symbol, code, hn, hbinding, Option.some.inj hstatement, hsolid⟩

/-- Brackets stay balanced all the way.  Operands of balanced texts are balanced, and they are their
own operands.  Every kind generates from balanced inputs an expression that is balanced and its own
operand.  So what a compiled shader assigns is balanced and its own operand, if the literals of the
nodes that the output depends on are balanced. -/
theorem bracketing_closed :
    (∀ s : String, Balanced s.toList →
      Balanced (operand s).toList ∧ operand (operand s) = operand s) ∧
    (∀ (k : Kind) (inputs : List String), inputs.length = k.sockets.length →
      (∀ input ∈ inputs, Balanced input.toList) →
      ∃ code, k.generate inputs = .ok code ∧ Balanced code.toList ∧ operand code = code) ∧
    ∀ (g : Graph) (options : Options) (shader : Shader),
      (g.compile options).result = .ok shader → g.LiteralsBalanced →
      ∀ (i : ℕ) (statement : String), shader.statements[i]? = some statement →
        ∃ (id : NodeId) (n : Node) (symbol : Symbol) (code : String),
          g.nodes[id]? = some n ∧ shader.bindings[i]? = some (id, symbol) ∧
          statement = (if options.nodeComments then "// " ++ n.name ++ "\n" else "")
            ++ n.output.name ++ " " ++ symbol.name ++ " = " ++ code ++ ";" ∧
          Balanced code.toList ∧ operand code = code := by
  refine ⟨fun s hs => ⟨hs.operand, operand_operand hs⟩, ?_, ?_⟩
  · intro k inputs hlength hinputs
    have hcode : k.generate inputs = .ok (k.formula.spliced (k.inputOf inputs)) := if_pos hlength
    have hsolid := Kind.solid_generate hcode hinputs
    exact ⟨_, hcode, hsolid.balanced, hsolid.operand_eq⟩
  · intro g options shader h hg i statement hi
    obtain ⟨id, n, symbol, code, hn, hbinding, hstatement, hsolid⟩ := hg.exists_solid h hi
    exact ⟨id, n, symbol, code, hn, hbinding, hstatement, hsolid.balanced, hsolid.operand_eq⟩

/-- An operand that has to be put in parentheses, an empty text and an indexing as inputs of a
curve; and the diamond, whose literals are defaults. -/
theorem bracketing_closed_diamond :
    operand " a[0] - (b) " = "(a[0] - (b))" ∧ operand "(a[0] - (b))" = "(a[0] - (b))" ∧
      (∃ code, Kind.generate .rgbCurves ["", " a[0] - (b) ", "curves[1]"] = .ok code ∧
        Balanced code.toList ∧ operand code = code) ∧
      ∃ shader, (diamond.compile {}).result = .ok shader ∧ diamond.LiteralsBalanced ∧
        ∃ before code, shader.statements[3]? = some (before ++ " = " ++ code ++ ";") ∧
          Balanced code.toList ∧ operand code = code := by
  obtain ⟨hoperand, hgenerate, hcompile⟩ := bracketing_closed
  have hbalanced : Balanced " a[0] - (b) ".toList := by decide
  have hwrapped : operand " a[0] - (b) " = "(a[0] - (b))" := by decide
  have hagain := (hoperand _ hbalanced).2
  have hinputs : ∀ input ∈ ["", " a[0] - (b) ", "curves[1]"], Balanced input.toList := by decide
  have horder : diamond.evaluate = .ok [3, 1, 2, 0] := by cbv
  have hnone : (diamond.emit SymbolTable.empty.push [3, 1, 2, 0]).failure = none := by cbv
  obtain ⟨shader, hshader⟩ := exists_shader_of_failure_eq_none {} horder rfl (by decide) hnone
  have hresult : (diamond.compile {}).result = .ok shader := by rw [hshader]
  have hbindings : (diamond.nodes.all fun n => n.sockets.all fun s =>
      s.binding ∈ n.kind.sockets.map (fun spec => spec.default.map Binding.literal) ++
        (List.range 4).map fun id => some (Binding.connection id)) = true := by decide
  have hg : diamond.LiteralsBalanced := by
    intro id n _ hn s hs l hl
    have hsockets := List.all_eq_true.mp hbindings n (List.mem_of_getElem? hn)
    have hdefault : ∃ spec ∈ n.kind.sockets, spec.default = some l := by
      simpa [hl] using List.all_eq_true.mp hsockets s hs
    obtain ⟨spec, hspec, hl⟩ := hdefault
    exact n.kind.balanced_default hspec hl
  -- there is a statement for every node of the order
  obtain ⟨order, _, _, horder', hemits, -, -, -, hprogram⟩ := exists_emits_of_compile hresult
  obtain rfl : [3, 1, 2, 0] = order := by
    rw [horder] at horder'
    exact Except.ok.inj horder'
  have hlength : shader.statements.length = 4 := by
    have hnodes := congrArg List.length hemits.map_node
    rw [hprogram]
    simpa [Shader.ofProgram] using hnodes
  have hlast : shader.statements[3]? = some shader.statements[3] := List.getElem?_eq_getElem _
  obtain ⟨_, _, _, code, _, _, hstatement, hcode⟩ := hcompile diamond {} shader hresult hg 3 _ hlast
  rw [hstatement] at hlast
  rw [hwrapped] at hagain
  exact ⟨hwrapped, hagain, hgenerate .rgbCurves _ rfl hinputs, shader, hresult, hg, _, code, hlast,
    hcode⟩

end Graph

end MaterialGraph
