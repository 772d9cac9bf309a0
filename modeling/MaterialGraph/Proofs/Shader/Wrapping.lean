import Mathlib
import MaterialGraph.Proofs.Formula.Characters
import MaterialGraph.Proofs.Shader.Shape
import MaterialGraph.Proofs.Text.Lines
import MaterialGraph.Shader.Fragment

/-!
# Which bodies are made into fragment shaders

The wrapper looks for the text of a return statement in the body.  A body that is compiled to return
its value is always accepted.  Any other body should be refused, and is accepted if the text stands
elsewhere in it: in a comment or a literal, in the indent, or in the target of an assignment
(`Shader.Mimics`).  The statement that hands the value over never counts by itself, and neither does
a declaration: without a semicolon in what the author of a graph has written (`Graph.Unpunctuated`)
there is no such text.

A declaration has one semicolon, at its end.  The expression before it ends with a bracket or a
point and at most one more character, and the name of a variable has neither.
-/

namespace MaterialGraph

/-- The characters of a generated name are letters, digits and underscores. -/
lemma SymbolTable.notMem_nameOf (type : ValueType) (number : Nat) {c : Char}
    (hc : (c.isAlphanum || c == '_') = false) : c ∉ (nameOf type number).toList := by
  have hletters : type.name.toList.all Char.isAlphanum = true := by cases type <;> decide
  obtain ⟨hletter, hunderscore⟩ := Bool.or_eq_false_iff.mp hc
  intro hmem
  rw [toList_nameOf, List.mem_append, List.mem_cons] at hmem
  rcases hmem with hmem | rfl | hmem
  · rw [List.all_eq_true.mp hletters c hmem] at hletter
    cases hletter
  · exact absurd hunderscore (by decide)
  · have hdigit : c.isDigit = true := Nat.isDigit_of_mem_toDigits (by decide) (by decide) hmem
    rw [Char.isAlphanum, hdigit, Bool.or_true] at hletter
    cases hletter

/-- A color can be made of the output of every kind. -/
lemma Kind.exists_colorOf_output (k : Kind) : ∃ color, Shader.colorOf k.output = some color := by
  rw [← Option.isSome_iff_exists]
  cases k <;> rfl

/-- No default of a socket has a semicolon. -/
lemma Kind.semicolon_notMem_default (k : Kind) {spec : SocketSpec} (hspec : spec ∈ k.sockets)
    {l : Literal} (hl : spec.default = some l) : ';' ∉ l.text.toList := by
  have hdefaults : (k.sockets.all fun spec =>
      spec.default.all fun l => ';' ∉ l.text.toList) = true := by
    cases k with
    | gamma m | lightFalloff m | separateColor m | math m | vectorMath m | mix m | clamp m =>
      cases m <;> decide
    | _ => decide
  simpa [hl] using List.all_eq_true.mp hdefaults spec hspec

/-- An input of a socket has a semicolon only if a literal or the name of a variable has. -/
lemma Socket.Reads.semicolon_notMem {bindings : List (NodeId × Symbol)} {i : Nat} {s : Socket}
    {input : String} (h : s.Reads bindings i input)
    (hliterals : ∀ l, s.binding = some (.literal l) → ';' ∉ l.text.toList)
    (hsymbols : ∀ b ∈ bindings, ';' ∉ b.2.name.toList) : ';' ∉ input.toList := by
  cases h with
  | literal hbinding => exact hliterals _ hbinding
  | symbol _ _ hj => exact hsymbols _ (List.mem_of_getElem? hj)

namespace Text

/-- In a text with one semicolon at its end, a part that ends with a semicolon is at the end. -/
lemma suffix_of_infix_concat {part cs : List Char} {c : Char} (hc : c ∉ cs)
    (h : part ++ [c] <:+: cs ++ [c]) : part <:+ cs := by
  obtain ⟨before, after, hsplit⟩ := h
  have hcons : cs ++ c :: [] = (before ++ part) ++ c :: after := by
    rw [← hsplit]
    simp
  obtain ⟨hfront, -, -⟩ := (List.append_cons_inj_of_notMem hc List.not_mem_nil).mp hcons
  exact ⟨before, hfront.symm⟩

/-- A statement ends with its only semicolon, and what is before that ends with a bracket or a
point and at most one more character. -/
def Terminated (statement : String) : Prop :=
  ∃ front : String, statement = front ++ ";" ∧ ';' ∉ front.toList ∧ Capped front.toList

/-- No line of a statement has a part that ends with a semicolon and has no brackets or points,
also not together with an indent. -/
lemma Terminated.not_infix_of_mem_lines {statement indent line : String} {part : List Char}
    (h : Terminated statement) (hline : line ∈ lines statement) (hindent : ';' ∉ indent.toList)
    (hlength : 2 ≤ part.length) (hbracket : ')' ∉ part) (hpoint : '.' ∉ part) :
    ¬ part ++ [';'] <:+: (indent ++ line).toList := by
  obtain ⟨front, rfl, hfront, hcapped⟩ := h
  obtain ⟨before, after, hsplit, hbefore⟩ := exists_append_of_mem_lines hline
  rw [String.toList_append] at hsplit ⊢
  intro hpart
  have hmem : ';' ∈ line.toList := by
    have hin : ';' ∈ indent.toList ++ line.toList := hpart.subset (by simp)
    exact (List.mem_append.mp hin).resolve_left hindent
  -- the line has the semicolon, so it is the last one and ends with it
  obtain ⟨cs, rest, hcs⟩ := List.append_of_mem hmem
  have hcons : front.toList ++ ';' :: [] = (before ++ cs) ++ ';' :: (rest ++ after) := by
    rw [hcs] at hsplit
    simpa using hsplit
  obtain ⟨hsame, -, hrest⟩ := (List.append_cons_inj_of_notMem hfront List.not_mem_nil).mp hcons
  obtain ⟨rfl, -⟩ := List.append_eq_nil_iff.mp hrest.symm
  have hnone : ';' ∉ indent.toList ++ cs := by
    rw [hsame] at hfront
    intro hin
    rcases List.mem_append.mp hin with hin | hin
    · exact hindent hin
    · exact hfront (List.mem_append_right _ hin)
  have hend : Capped (indent.toList ++ cs) := by
    rw [hsame] at hcapped
    exact (hcapped.of_append hbefore).append_left indent.toList
  rw [hcs, ← List.append_assoc] at hpart
  exact hend.not_suffix hlength hbracket hpoint (suffix_of_infix_concat hnone hpart)

end Text

namespace Shader

/-- What a body says that returns the variable with the given name. -/
def returning (name : String) : List Char :=
  ("return " ++ name ++ ";").toList

/-- A body looks as if it returned its value, apart from its last line: the indent with a line of a
declaration, or with the target of the assignment, has the text of a return statement. -/
def Mimics (shader : Shader) (options : Options) : Prop :=
  (∃ line ∈ shader.statements.flatMap Text.lines,
    returning shader.result.name <:+: (options.indent ++ line).toList) ∨
  ∃ target, options.result = .assigned target ∧
    returning shader.result.name <:+: (options.indent ++ target).toList

/-- A text is made into a fragment shader just if it has the text of a return statement. -/
lemma exists_fragment_iff {source : String} {result : Symbol}
    (hcolor : ∃ color, colorOf result.type = some color) :
    (∃ text, fragment source result = .ok text) ↔ returning result.name <:+: source.toList := by
  obtain ⟨color, hcolor⟩ := hcolor
  rw [← Text.occurs_iff_infix]
  unfold fragment returning
  rw [hcolor]
  split
  · rename_i hoccurs
    exact ⟨fun _ => hoccurs, fun _ => ⟨_, rfl⟩⟩
  · rename_i hoccurs
    exact ⟨fun ⟨_, htext⟩ => (nomatch htext), fun h => absurd h hoccurs⟩

/-- A text of a type that is a color is refused for want of a return statement only. -/
lemma eq_noReturn_of_fragment {source : String} {result : Symbol} {e : FragmentError}
    (hcolor : ∃ color, colorOf result.type = some color)
    (h : fragment source result = .error e) : e = .noReturn := by
  obtain ⟨color, hcolor⟩ := hcolor
  unfold fragment at h
  rw [hcolor] at h
  split at h
  · cases h
  · exact (Except.error.inj h).symm

section Returning

variable {type : ValueType} {number : Nat}

/-- A return statement ends with its semicolon. -/
lemma returning_eq (name : String) : returning name = ("return " ++ name).toList ++ [';'] := by
  simp [returning]

/-- The return statement of a generated name has, but for a blank and the semicolon, only characters
of names. -/
lemma notMem_returning {c : Char} (hc : (c.isAlphanum || c == '_') = false)
    (hmark : c ∉ [' ', ';']) : c ∉ returning (SymbolTable.nameOf type number) := by
  have hword : ("return ".toList.all fun d => d.isAlphanum || d == ' ') = true := by decide
  intro hmem
  unfold returning at hmem
  rw [String.toList_append, String.toList_append, List.mem_append, List.mem_append] at hmem
  rcases hmem with (hmem | hmem) | hmem
  · have hletter := List.all_eq_true.mp hword c hmem
    rw [(Bool.or_eq_false_iff.mp hc).1, Bool.false_or, beq_iff_eq] at hletter
    exact hmark (hletter ▸ List.mem_cons_self)
  · exact SymbolTable.notMem_nameOf type number hc hmem
  · obtain rfl := List.mem_singleton.mp hmem
    exact hmark (by decide)

/-- An assignment to a target has the text of a return statement only in the target. -/
lemma returning_infix_assignment_iff (cs : List Char) :
    returning (SymbolTable.nameOf type number) <:+:
        cs ++ (" = " ++ SymbolTable.nameOf type number ++ ";").toList ↔
      returning (SymbolTable.nameOf type number) <:+: cs := by
  have hequals : '=' ∉ returning (SymbolTable.nameOf type number) :=
    notMem_returning (by decide) (by decide)
  have hsplit : cs ++ (" = " ++ SymbolTable.nameOf type number ++ ";").toList =
      (cs ++ [' ']) ++ '=' :: (' ' :: (SymbolTable.nameOf type number).toList ++ [';']) := by
    simp
  rw [hsplit, Text.infix_append_cons_iff hequals]
  constructor
  · rintro (h | h)
    · rcases List.infix_concat_iff.mp h with h | h
      · -- the return statement does not end with a blank
        obtain ⟨before, hbefore⟩ := h
        rw [returning_eq, ← List.append_assoc] at hbefore
        exact absurd (List.append_inj_right' hbefore rfl) (by decide)
      · exact h
    · have hlength := h.length_le
      simp [returning] at hlength
      omega
  · intro h
    exact Or.inl (h.trans (List.prefix_append cs [' ']).isInfix)

end Returning

/-- The text of a return statement is in one line of a body, of a declaration or the last. -/
lemma returning_infix_body_iff {options : Options} {statements : List String} {name : String}
    (hfeed : '\n' ∉ returning name) :
    returning name <:+: (body options statements name).toList ↔
      (∃ line ∈ statements.flatMap Text.lines,
        returning name <:+: (options.indent ++ line).toList) ∨
      ∃ last, options.result.line name = some last ∧
        returning name <:+: (options.indent ++ last).toList := by
  have hne : returning name ≠ [] := by simp [returning_eq]
  unfold body
  rw [Text.infix_unlines_iff hne hfeed]
  simp only [List.mem_append, or_and_right, exists_or, List.mem_map, Option.mem_toList,
    exists_exists_and_eq_and]

/-- The last line of a body has the text of a return statement if it is one or if the target of the
assignment has it. -/
lemma returning_infix_last_iff {options : Options} {type : ValueType} {number : Nat} :
    (∃ last, options.result.line (SymbolTable.nameOf type number) = some last ∧
        returning (SymbolTable.nameOf type number) <:+: (options.indent ++ last).toList) ↔
      options.result = .returned ∨ ∃ target, options.result = .assigned target ∧
        returning (SymbolTable.nameOf type number) <:+: (options.indent ++ target).toList := by
  cases hresult : options.result with
  | returned =>
    have hlast : returning (SymbolTable.nameOf type number) <:+:
        (options.indent ++ ("return " ++ SymbolTable.nameOf type number ++ ";")).toList := by
      rw [String.toList_append]
      exact (List.suffix_append _ _).isInfix
    simpa [ResultBinding.line] using hlast
  | assigned target =>
    have hlast :=
      @returning_infix_assignment_iff type number (options.indent ++ target).toList
    rw [← String.toList_append] at hlast
    simpa [ResultBinding.line, ← String.append_assoc] using hlast
  | omitted => simp [ResultBinding.line]

/-- A declaration is a statement with one semicolon, unless the label of its node or an input of its
expression has one. -/
lemma Declares.exists_terminated {shader : Shader} {nodeComments : Bool} {i : Nat} {id : NodeId}
    {n : Node} {symbol : Symbol} (h : shader.Declares nodeComments i id n symbol)
    (hlabel : nodeComments = true → ';' ∉ n.name.toList)
    (hsymbols : ∀ b ∈ shader.bindings, ';' ∉ b.2.name.toList)
    (hliterals : ∀ s ∈ n.sockets, ∀ l, s.binding = some (.literal l) → ';' ∉ l.text.toList) :
    ∃ statement, shader.statements[i]? = some statement ∧ Text.Terminated statement := by
  obtain ⟨inputs, code, hreads, hcode, hstatement⟩ := h.statement
  have hinputs : ∀ input ∈ inputs, ';' ∉ input.toList := by
    intro input hinput
    obtain ⟨j, hj, rfl⟩ := List.getElem_of_mem hinput
    have hsocket : j < n.sockets.length := by rw [hreads.length_eq]; exact hj
    have hread : (n.sockets[j]).Reads shader.bindings i inputs[j] := hreads.get hsocket hj
    exact hread.semicolon_notMem (hliterals _ (List.getElem_mem hsocket)) hsymbols
  have hcomment : ';' ∉ (if nodeComments then "// " ++ n.name ++ "\n" else "").toList := by
    split
    · rename_i hcomments
      simp [hlabel hcomments]
    · exact List.not_mem_nil
  have htype : ';' ∉ n.output.name.toList := by
    cases n.output <;> decide
  have hname : ';' ∉ symbol.name.toList := by
    rw [h.name]
    exact SymbolTable.notMem_nameOf n.output _ (by decide)
  refine ⟨_, hstatement, _, rfl, ?_, ?_⟩
  · simp [hcomment, htype, hname, Kind.semicolon_notMem_generate hcode hinputs]
  · rw [String.toList_append]
    exact (Kind.capped_generate hcode).append_left _

end Shader

namespace Graph

variable {g : Graph} {options : Options} {shader : Shader}

/-- Nothing that the author of a graph has written into a body has a semicolon: not the indent and
the target, not the literals of the nodes that the output depends on, and, if they are in comments,
not the names of these nodes. -/
structure Unpunctuated (g : Graph) (options : Options) : Prop where
  indent : ';' ∉ options.indent.toList
  target : ∀ target, options.result = .assigned target → ';' ∉ target.toList
  label : options.nodeComments = true → ∀ id n, g.Reachable id → g.nodes[id]? = some n →
    ';' ∉ n.name.toList
  literal : ∀ id n, g.Reachable id → g.nodes[id]? = some n → ∀ s ∈ n.sockets, ∀ l,
    s.binding = some (.literal l) → ';' ∉ l.text.toList

/-- All statements of a shader are terminated if the author has written no semicolon. -/
lemma Unpunctuated.terminated (hg : g.Unpunctuated options)
    (h : (g.compile options).result = .ok shader) {statement : String}
    (hstatement : statement ∈ shader.statements) : Text.Terminated statement := by
  have hsymbols : ∀ b ∈ shader.bindings, ';' ∉ b.2.name.toList := by
    intro b hb
    obtain ⟨number, hname⟩ := exists_nameOf_of_compile h hb
    rw [hname]
    exact SymbolTable.notMem_nameOf _ number (by decide)
  obtain ⟨i, hi⟩ := List.mem_iff_getElem?.mp hstatement
  obtain ⟨id, n, symbol, hreachable, hn, -, hdeclares⟩ := exists_declares_of_compile h hi
  obtain ⟨declared, hdeclared, hterminated⟩ := hdeclares.exists_terminated
    (fun hcomments => hg.label hcomments id n hreachable hn) hsymbols
    (hg.literal id n hreachable hn)
  rw [hi] at hdeclared
  exact Option.some.inj hdeclared ▸ hterminated

/-- A shader does not look as if it returned its value if the author has written no semicolon. -/
lemma Unpunctuated.not_mimics (hg : g.Unpunctuated options)
    (h : (g.compile options).result = .ok shader) {type : ValueType} {number : Nat}
    (hname : shader.result.name = SymbolTable.nameOf type number) : ¬ shader.Mimics options := by
  have hmem : ∀ {c : Char}, (c.isAlphanum || c == '_') = false → c ∉ [' ', ';'] →
      c ∉ ("return " ++ shader.result.name).toList := by
    intro c hc hmark hin
    refine @Shader.notMem_returning type number c hc hmark ?_
    rw [← hname, Shader.returning_eq]
    exact List.mem_append_left _ hin
  rintro (⟨line, hline, hreturns⟩ | ⟨target, htarget, hreturns⟩)
  · obtain ⟨statement, hstatement, hline⟩ := List.mem_flatMap.mp hline
    rw [Shader.returning_eq] at hreturns
    exact (hg.terminated h hstatement).not_infix_of_mem_lines hline hg.indent (by simp)
      (hmem (by decide) (by decide)) (hmem (by decide) (by decide)) hreturns
  · have hsemicolon : ';' ∈ (options.indent ++ target).toList :=
      hreturns.subset (by simp [Shader.returning_eq])
    rw [String.toList_append, List.mem_append] at hsemicolon
    exact hsemicolon.elim hg.indent (hg.target target htarget)

/-- A body that is compiled to return its value is made into a fragment shader: its last line is the
statement that is looked for, and the output of every kind is a color. -/
lemma exists_fragment_of_returned (h : (g.compile options).result = .ok shader)
    (hreturned : options.result = .returned) :
    ∃ text, Shader.fragment shader.source shader.result = .ok text := by
  obtain ⟨_, _, a, _, hemits, _, ha, _, rfl⟩ := exists_emits_of_compile h
  have hcolor : ∃ color, Shader.colorOf a.symbol.type = some color := by
    obtain ⟨i, hi⟩ := List.mem_iff_getElem?.mp ha
    obtain ⟨seen, n, hassigned, -, -⟩ := hemits.exists_assigned hi
    rw [hassigned.symbol, SymbolTable.allocate_symbol]
    exact n.kind.exists_colorOf_output
  refine (Shader.exists_fragment_iff hcolor).mpr ?_
  have hlast : (options.result.line a.symbol.name).toList.map (options.indent ++ ·) =
      [options.indent ++ ("return " ++ a.symbol.name ++ ";")] := by
    rw [hreturned]
    rfl
  simp only [Shader.ofProgram, Shader.body]
  rw [hlast, Text.unlines_append, String.toList_append]
  refine List.IsInfix.trans ?_ (List.suffix_append _ _).isInfix
  exact ⟨options.indent.toList, ['\n'], by simp [Shader.returning, Text.unlines]⟩

/-- A compiled body is made into a fragment shader just if it returns its value or looks as if it
did; otherwise it is refused for want of a return statement.  Bodies of authors who write no
semicolons are accepted just if they return their value. -/
theorem compile_fragment_iff (g : Graph) (options : Options) (shader : Shader)
    (h : (g.compile options).result = .ok shader) :
    ((∃ text, Shader.fragment shader.source shader.result = .ok text) ↔
      options.result = .returned ∨ shader.Mimics options) ∧
    (∀ e, Shader.fragment shader.source shader.result = .error e → e = .noReturn) ∧
    (g.Unpunctuated options →
      ((∃ text, Shader.fragment shader.source shader.result = .ok text) ↔
        options.result = .returned)) := by
  obtain ⟨_, _, a, _, hemits, _, ha, _, hshader⟩ := exists_emits_of_compile h
  obtain ⟨number, hnumber, -⟩ := hemits.exists_number a ha
  have hresult : shader.result = a.symbol := by rw [hshader]; rfl
  have hname : shader.result.name = SymbolTable.nameOf shader.result.type number := by
    rw [hresult, hnumber]
  have hcolor : ∃ color, Shader.colorOf shader.result.type = some color := by
    obtain ⟨i, hi⟩ := List.mem_iff_getElem?.mp ha
    obtain ⟨seen, n, hassigned, -, -⟩ := hemits.exists_assigned hi
    rw [hresult, hassigned.symbol, SymbolTable.allocate_symbol]
    exact n.kind.exists_colorOf_output
  have hfeed : '\n' ∉ Shader.returning shader.result.name := by
    rw [hname]
    exact Shader.notMem_returning (by decide) (by decide)
  have hsource : shader.source = Shader.body options shader.statements shader.result.name := by
    rw [hshader]
    rfl
  have haccepts : (∃ text, Shader.fragment shader.source shader.result = .ok text) ↔
      options.result = .returned ∨ shader.Mimics options := by
    rw [Shader.exists_fragment_iff hcolor, hsource, Shader.returning_infix_body_iff hfeed]
    unfold Shader.Mimics
    rw [hname, Shader.returning_infix_last_iff]
    exact or_left_comm
  refine ⟨haccepts, fun e he => Shader.eq_noReturn_of_fragment hcolor he, fun hg => ?_⟩
  rw [haccepts, or_iff_left (hg.not_mimics h hname)]

/-- The body of the diamond, with comments and with an assignment at its end, is refused. -/
theorem compile_fragment_diamond :
    ∃ shader, (diamond.compile ⟨.assigned "albedo", "    ", true⟩).result = .ok shader ∧
      diamond.Unpunctuated ⟨.assigned "albedo", "    ", true⟩ ∧
      Shader.fragment shader.source shader.result = .error .noReturn := by
  have horder : diamond.evaluate = .ok [3, 1, 2, 0] := by cbv
  have hnone : (diamond.emit SymbolTable.empty.push [3, 1, 2, 0]).failure = none := by cbv
  obtain ⟨shader, hshader⟩ := exists_shader_of_failure_eq_none ⟨.assigned "albedo", "    ", true⟩
    horder rfl (by decide) hnone
  have hresult : (diamond.compile ⟨.assigned "albedo", "    ", true⟩).result = .ok shader := by
    rw [hshader]
  have hnames : (diamond.nodes.all fun n => ';' ∉ n.name.toList) = true := by decide
  have hbindings : (diamond.nodes.all fun n => n.sockets.all fun s =>
      s.binding ∈ n.kind.sockets.map (fun spec => spec.default.map Binding.literal) ++
        (List.range 4).map fun id => some (Binding.connection id)) = true := by decide
  have hg : diamond.Unpunctuated ⟨.assigned "albedo", "    ", true⟩ := by
    refine ⟨by decide, ?_, ?_, ?_⟩
    · rintro _ ⟨⟩
      decide
    · intro _ id n _ hn
      simpa using List.all_eq_true.mp hnames n (List.mem_of_getElem? hn)
    · intro id n _ hn s hs l hl
      have hsockets := List.all_eq_true.mp hbindings n (List.mem_of_getElem? hn)
      have hdefault : ∃ spec ∈ n.kind.sockets, spec.default = some l := by
        simpa [hl] using List.all_eq_true.mp hsockets s hs
      obtain ⟨spec, hspec, hl⟩ := hdefault
      exact n.kind.semicolon_notMem_default hspec hl
  obtain ⟨-, herror, hreturned⟩ := compile_fragment_iff diamond _ shader hresult
  refine ⟨shader, hresult, hg, ?_⟩
  cases hfragment : Shader.fragment shader.source shader.result with
  | ok text => exact absurd ((hreturned hg).mp ⟨text, hfragment⟩) (by decide)
  | error e => rw [herror e hfragment]

/-- A graph of one node, whose name is a return statement. -/
def imposter : Graph :=
  ⟨[Node.new "return float_0;" (.math .add)], some 0⟩

/-- The imposter is accepted although it does not return its value: the comment with the name of its
node is taken for the statement. -/
theorem fragment_imposter :
    ∃ shader text, (imposter.compile { result := .omitted, nodeComments := true }).result =
      .ok shader ∧ Shader.fragment shader.source shader.result = .ok text := by
  refine ⟨⟨"// return float_0;\nfloat float_0 = (0.5 + 0.5);\n", ⟨.float, "float_0", 0⟩,
    ["// return float_0;\nfloat float_0 = (0.5 + 0.5);"], [(0, ⟨.float, "float_0", 0⟩)]⟩, _,
    by cbv, rfl⟩

end Graph

end MaterialGraph
