import Mathlib
import MaterialGraph.Proofs.Shader.Wrapping

/-!
# Options shape only the text

The options of a compilation come into play at its very end, when the program has been made and its
value is known (`Graph.exists_compile_eq`).  So whether there is a shader, what is wrong otherwise
and which variables are used does not depend on them, and the statements depend on them only by
their comments.

The body is a list of lines (`Shader.plainLines`), each of which is put behind the indent.  Literals
and names can have line feeds, but a statement is cut into lines before the indent is added, so no
line has one.  Cutting the body at its line feeds then gives these lines back
(`Shader.pieces_source`), and what two bodies have in common can be read off their lines.
-/

namespace MaterialGraph

namespace Text

/-- What is between the line feeds of a text, and before the first and after the last of them. -/
def pieces (s : String) : List (List Char) :=
  s.toList.splitOn '\n'

/-- A line without the indent in front of it, if it is there. -/
def unindented (indent : String) (line : List Char) : List Char :=
  (line.dropPrefix? indent.toList).getD line

/-- Cutting a text of lines at its line feeds gives the lines, and nothing after the last of
them. -/
lemma pieces_unlines {ls : List String} (hls : ∀ l ∈ ls, '\n' ∉ l.toList) :
    pieces (unlines ls) = ls.map String.toList ++ [[]] := by
  induction ls with
  | nil => rfl
  | cons l ls ih =>
    rw [List.forall_mem_cons] at hls
    have hcons : (unlines (l :: ls)).toList = l.toList ++ '\n' :: (unlines ls).toList := by
      simp [unlines]
    have hl : l.toList.splitOn '\n' = [l.toList] := List.splitOn_eq_singleton hls.1
    unfold pieces List.splitOn at *
    rw [hcons, List.splitOnP_append_cons _ _ (by decide), hl, ih hls.2]
    rfl

/-- Of an indented line the line is left. -/
lemma unindented_append (indent : String) (line : List Char) :
    unindented indent (indent.toList ++ line) = line := by
  have hdrop : (indent.toList ++ line).dropPrefix? indent.toList = some line :=
    List.dropPrefix?_eq_some_iff.mpr ⟨indent.toList, rfl, beq_self_eq_true _⟩
  rw [unindented, hdrop, Option.getD_some]

/-- Nothing is left of nothing. -/
lemma unindented_nil (indent : String) : unindented indent [] = [] := by
  cases hdrop : ([] : List Char).dropPrefix? indent.toList with
  | none => rw [unindented, hdrop, Option.getD_none]
  | some line =>
    obtain ⟨front, hsplit, -⟩ := List.dropPrefix?_eq_some_iff.mp hdrop
    rw [unindented, hdrop, Option.getD_some]
    exact (List.append_eq_nil_iff.mp hsplit.symm).2

end Text

/-- The body ends with one line at most: a target has no line feed. -/
def ResultBinding.OneLine : ResultBinding → Prop
  | assigned target => '\n' ∉ target.toList
  | _ => True

namespace Shader

/-- The lines of a body before they are indented. -/
def plainLines (nodeComments : Bool) (binding : ResultBinding) (program : List Assignment)
    (result : Symbol) : List String :=
  (program.map (Assignment.statement · nodeComments)).flatMap Text.lines ++
    (binding.line result.name).toList

/-- The body is its lines behind the indent. -/
lemma source_eq_unlines (options : Options) (program : List Assignment) (result : Symbol) :
    (ofProgram options program result).source =
      Text.unlines ((plainLines options.nodeComments options.result program result).map
        (options.indent ++ ·)) := by
  simp only [ofProgram, body, plainLines, List.map_append]

/-- No line of a body has a line feed. -/
lemma feed_notMem_of_mem_plainLines {nodeComments : Bool} {binding : ResultBinding}
    {program : List Assignment} {result : Symbol} (hbinding : binding.OneLine)
    (hresult : '\n' ∉ result.name.toList) {l : String}
    (hl : l ∈ plainLines nodeComments binding program result) : '\n' ∉ l.toList := by
  rcases List.mem_append.mp hl with hl | hl
  · obtain ⟨statement, -, hl⟩ := List.mem_flatMap.mp hl
    exact Text.feed_notMem_of_mem_lines hl
  · cases binding with
    | returned =>
      obtain rfl : l = "return " ++ result.name ++ ";" := by
        simpa [ResultBinding.line] using hl
      simpa using hresult
    | assigned target =>
      obtain rfl : l = target ++ " = " ++ result.name ++ ";" := by
        simpa [ResultBinding.line] using hl
      simpa using ⟨hbinding, hresult⟩
    | omitted => simp [ResultBinding.line] at hl

/-- Cutting a body at its line feeds gives its lines behind the indent. -/
lemma pieces_source {options : Options} {program : List Assignment} {result : Symbol}
    (hindent : '\n' ∉ options.indent.toList) (hbinding : options.result.OneLine)
    (hresult : '\n' ∉ result.name.toList) :
    Text.pieces (ofProgram options program result).source =
      (plainLines options.nodeComments options.result program result).map
        (fun l => options.indent.toList ++ l.toList) ++ [[]] := by
  rw [source_eq_unlines, Text.pieces_unlines]
  · simp only [List.map_map, Function.comp_def, String.toList_append]
  · intro l hl
    obtain ⟨line, hline, rfl⟩ := List.mem_map.mp hl
    have hfeed := feed_notMem_of_mem_plainLines hbinding hresult hline
    simpa using ⟨hindent, hfeed⟩

end Shader

namespace Graph

/-- Compiling makes of the options no more than the text of the shader. -/
lemma exists_compile_eq (g : Graph) :
    ∃ (result : Except GraphError Symbol) (k : Nat), ∀ options,
      g.compile options = ⟨result.map (Shader.ofProgram options g.program), k⟩ := by
  unfold compile program
  cases g.evaluate with
  | error e => exact ⟨.error e, 0, fun _ => rfl⟩
  | ok order =>
    cases hfailure : (g.emit SymbolTable.empty.push order).failure with
    | some e => exact ⟨.error e, _, fun _ => by simp only [hfailure]; rfl⟩
    | none =>
      unfold shader
      cases g.root with
      | none => exact ⟨.error .noRoot, _, fun _ => by simp only [hfailure]; rfl⟩
      | some root =>
        cases hfound : (g.emit SymbolTable.empty.push order).assignments.find?
            fun a => a.symbol.node == root with
        | none =>
          exact ⟨.error (.unresolved "<output>" (g.label root)), _,
            fun _ => by simp only [hfailure, hfound]; rfl⟩
        | some a => exact ⟨.ok a.symbol, _, fun _ => by simp only [hfailure, hfound]; rfl⟩

/-- The variable that holds the value of a shader has no line feed in its name. -/
lemma feed_notMem_result {g : Graph} {options : Options} {shader : Shader}
    (h : (g.compile options).result = .ok shader) : '\n' ∉ shader.result.name.toList := by
  obtain ⟨order, root, a, -, hemits, -, ha, -, rfl⟩ := exists_emits_of_compile h
  obtain ⟨number, hname, -⟩ := hemits.exists_number a ha
  have hresult : (Shader.ofProgram options g.program a.symbol).result = a.symbol := rfl
  rw [hresult, hname]
  exact SymbolTable.notMem_nameOf _ _ (by decide)

/-- Under any two options a graph compiles to the same error after as many variables, or to shaders
with the same variables and the same result, and with the same statements if both or none have
comments.  If moreover the two bodies hand their value over in the same way and in one line, and the
indents have no line feed, the bodies are the same lines behind the one and the other indent.  If
they differ in how they hand it over and in nothing else, they are the same lines up to the last
one, which each of them has or has not by its own option. -/
theorem compile_options_shape_text (g : Graph) (a b : Options) :
    (∃ e k, g.compile a = ⟨.error e, k⟩ ∧ g.compile b = ⟨.error e, k⟩) ∨
      ∃ s t k, g.compile a = ⟨.ok s, k⟩ ∧ g.compile b = ⟨.ok t, k⟩ ∧
        s.bindings = t.bindings ∧ s.result = t.result ∧
        (a.nodeComments = b.nodeComments → s.statements = t.statements) ∧
        (a.nodeComments = b.nodeComments → a.result = b.result → a.result.OneLine →
          '\n' ∉ a.indent.toList → '\n' ∉ b.indent.toList →
          (Text.pieces s.source).map (Text.unindented a.indent) =
              (Text.pieces t.source).map (Text.unindented b.indent) ∧
            ∃ lines : List (List Char),
              Text.pieces s.source = lines.map (a.indent.toList ++ ·) ++ [[]] ∧
              Text.pieces t.source = lines.map (b.indent.toList ++ ·) ++ [[]]) ∧
        (a.nodeComments = b.nodeComments → a.indent = b.indent → a.result.OneLine →
          b.result.OneLine → '\n' ∉ a.indent.toList →
          ∃ lines,
            Text.pieces s.source = lines ++ (a.result.line s.result.name).toList.map
              (fun last => (a.indent ++ last).toList) ++ [[]] ∧
            Text.pieces t.source = lines ++ (b.result.line s.result.name).toList.map
              (fun last => (b.indent ++ last).toList) ++ [[]]) := by
  obtain ⟨result, k, hcompile⟩ := g.exists_compile_eq
  cases result with
  | error e => exact Or.inl ⟨e, k, hcompile a, hcompile b⟩
  | ok symbol =>
    have hfeed : '\n' ∉ symbol.name.toList :=
      feed_notMem_result (congrArg Outcome.result (hcompile a))
    refine Or.inr ⟨_, _, k, hcompile a, hcompile b, rfl, rfl, fun hcomments => ?_,
      fun hcomments hresult hone hindent hindent' => ?_,
      fun hcomments hindent hone hone' hfree => ?_⟩
    · simp only [Shader.ofProgram, hcomments]
    · rw [Shader.pieces_source hindent hone hfeed,
        Shader.pieces_source hindent' (hresult ▸ hone) hfeed, hcomments, hresult]
      refine ⟨?_, (Shader.plainLines b.nodeComments b.result g.program symbol).map String.toList,
        by simp, by simp⟩
      simp [Text.unindented_append, Text.unindented_nil, Function.comp_def]
    · have hfree' : '\n' ∉ b.indent.toList := hindent ▸ hfree
      rw [Shader.pieces_source hfree hone hfeed, Shader.pieces_source hfree' hone' hfeed,
        hcomments, hindent]
      refine ⟨((g.program.map (Assignment.statement · b.nodeComments)).flatMap Text.lines).map
        (fun l => b.indent.toList ++ l.toList), ?_, ?_⟩
      · simp [Shader.plainLines, Shader.ofProgram]
      · simp [Shader.plainLines, Shader.ofProgram]

/-- A graph of one node, with line feeds in its name and in a value. -/
def folded : Graph where
  nodes := [(Node.new "fold\r\nof two" (.math .add)).bind "Value2"
    (some (.literal ⟨.float, "(1.0\n+ 2.0)"⟩))]
  root := some 0

/-- The lines of the name and of the value are lines of the body under either indent. -/
theorem compile_options_shape_text_folded :
    ∃ s t, (folded.compile ⟨.assigned "color", "  ", true⟩).result = .ok s ∧
      (folded.compile ⟨.assigned "color", "\t", true⟩).result = .ok t ∧
      s.source =
        "  // fold\n  of two\n  float float_0 = (0.5 + (1.0\n  + 2.0));\n  color = float_0;\n" ∧
      (Text.pieces s.source).map (Text.unindented "  ") =
        (Text.pieces t.source).map (Text.unindented "\t") := by
  have hfirst : (folded.compile ⟨.assigned "color", "  ", true⟩).result = .ok
      ⟨"  // fold\n  of two\n  float float_0 = (0.5 + (1.0\n  + 2.0));\n  color = float_0;\n",
        ⟨.float, "float_0", 0⟩, ["// fold\r\nof two\nfloat float_0 = (0.5 + (1.0\n+ 2.0));"],
        [(0, ⟨.float, "float_0", 0⟩)]⟩ := by cbv
  rcases compile_options_shape_text folded ⟨.assigned "color", "  ", true⟩
    ⟨.assigned "color", "\t", true⟩ with ⟨e, k, herror, -⟩ | ⟨s, t, k, hs, ht, -, -, -, hlines, -⟩
  · rw [herror] at hfirst
    cases hfirst
  · rw [hs] at hfirst
    obtain rfl := Except.ok.inj hfirst
    have honeLine : (ResultBinding.assigned "color").OneLine := by
      unfold ResultBinding.OneLine
      decide
    exact ⟨_, t, congrArg Outcome.result hs, congrArg Outcome.result ht, rfl,
      (hlines rfl rfl honeLine (by decide) (by decide)).1⟩

end Graph

end MaterialGraph
